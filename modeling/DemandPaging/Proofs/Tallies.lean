import DemandPaging.Proofs.ChunkHistory
import DemandPaging.Proofs.FailedFaults
import DemandPaging.Proofs.RoomToSpare
import DemandPaging.Proofs.SavedTotals

set_option autoImplicit false

namespace DemandPaging

variable [Platform]

-- What requests and faults came to: objects allocated, objects freed, records of resident chunks that were retired, faults at
-- header pages, and faults whose bytes were put together for a chunk that was there.
structure Tally where
  granted : Nat
  freed : Nat
  retired : Nat
  headers : Nat
  found : Nat

def Tally.zero : Tally := ⟨0, 0, 0, 0, 0⟩

namespace Pager

def recordsOf (p : Pager) (id : ObjectId) : Nat := p.live.countP fun r => r.owner = id

def installs (p : Pager) : Nat := p.journal.countP fun
  | .installed _ _ => true
  | _ => false

-- The chunk that a fault at the address asks for; there is none for a header page.
def target? (p : Pager) (address : Nat) : Option Chunk :=
  (p.objects.find? fun o => o.mapping.holds address).bind fun o =>
    if address - o.mapping.base < o.shape.headerPadded then
      none
    else
      some (o.shape.piece ((address - o.mapping.base - o.shape.headerPadded) / o.shape.chunkLen))

-- The chunk that the pager found to be there when it answered the fault, so that nothing was installed.
def found? (p q : Pager) (address : Nat) : Option Chunk := (p.target? address).filter fun _ => q.installs == p.installs

-- The most bytes that were counted as resident in the meantime, with those of a chunk that turned out to be there.
def surge (p q : Pager) (address : Nat) : Nat :=
  (p.found? q address).elim 0 fun chunk => q.counters.residentBytes + chunk.fillLen

end Pager

namespace Tally

def served (t : Tally) (p : Pager) : Request → Reply → Tally
  | .allocate _ _, .granted _ => { t with granted := t.granted + 1 }
  | .free id, .done => { t with freed := t.freed + 1, retired := t.retired + p.recordsOf id }
  | .reset id, .done => { t with retired := t.retired + p.recordsOf id }
  | _, _ => t

theorem served_faults (t : Tally) (p : Pager) (request : Request) (reply : Reply) :
    (t.served p request reply).headers = t.headers ∧ (t.served p request reply).found = t.found := by
  cases request <;> cases reply <;> exact ⟨rfl, rfl⟩

def faulted (t : Tally) (p q : Pager) (address : Nat) : Tally :=
  { t with
    headers := t.headers + (p.target? address).isNone.toNat
    found := t.found + (p.found? q address).isSome.toNat }

end Tally

namespace Pager

-- The accounts of a pager that has `pending` faults still to settle, and the bytes of `loose` chunks that are not installed.
structure Balanced (t : Tally) (pending loose peak : Nat) (p : Pager) : Prop where
  faults : p.counters.faults = p.counters.fills + p.counters.restores + t.headers + pending
  brought : p.counters.fills + p.counters.restores = p.counters.reclaims + t.retired + p.live.length + t.found + loose
  written : p.counters.writebacks ≤ p.counters.reclaims
  saved : p.savedTotal ≤ p.counters.writebacks
  restored : 0 < p.counters.restores → 0 < p.counters.writebacks
  objects : p.objects.length + t.freed = t.granted
  peak : p.counters.peakResidentBytes = peak

section

variable (t : Tally) (pending loose peak : Nat) (p q : Pager)

theorem balanced_start (settings : Settings) (start : Pager.start settings = .ok p) :
    Balanced .zero 0 0 0 p := by
  simp only [Pager.start, Word.bind_eq_ok] at start
  obtain ⟨_, _, queue, made, _, _, staging, _, same⟩ := start
  obtain ⟨-, rfl⟩ := (CircularQueue.try_new_eq_ok _ _ _).mp (Halt.of_word_eq_ok.mp made)
  cases same
  exact ⟨rfl, by simp [live, CircularQueue.to_list_with_capacity, Counters.zero, Tally.zero], Nat.le_refl 0, Nat.le_refl 0, id,
    rfl, rfl⟩

theorem balanced_noticed (balanced : Balanced t 0 0 peak p) : Balanced t 1 0 peak p.noticed where
  faults := congrArg (· + 1) balanced.faults
  brought := balanced.brought
  written := balanced.written
  saved := balanced.saved
  restored := balanced.restored
  objects := balanced.objects
  peak := balanced.peak

theorem balanced_turn (ledger : Ledger p) (balanced : Balanced t pending loose peak p) (turn : Turn p q) :
    Balanced t pending loose peak q := by
  cases turn with
  | retired oldest queue popped len =>
      obtain ⟨-, front, -⟩ := pop_front p.queue queue oldest ledger.queue popped
      have live := live_pop_retired p oldest queue front len
      exact ⟨balanced.faults, live ▸ balanced.brought, balanced.written, balanced.saved, balanced.restored, balanced.objects,
        balanced.peak⟩
  | evicted oldest queue o later saved popped member of evicted =>
      obtain ⟨-, front, -⟩ := pop_front p.queue queue oldest ledger.queue popped
      have live : p.live.length = { p with queue }.live.length + 1 :=
        congrArg List.length (live_pop p oldest queue front (oldest.of_len_pos o of))
      have total := saved_total_evicted p o later ledger.ids member oldest saved (ledger.sound o member) evicted
      have one : saved.toNat ≤ 1 := Bool.toNat_le saved
      have brought := balanced.brought
      have written := balanced.written
      have copies := balanced.saved
      have restored := balanced.restored
      have peaked := balanced.peak
      have fewer := ledger.peak.1
      refine ⟨balanced.faults, ?_, ?_, ?_, fun some => ?_, ?_, ?_⟩
      · show p.counters.fills + p.counters.restores =
          p.counters.reclaims + 1 + t.retired + { p with queue }.live.length + t.found + loose
        omega
      · show p.counters.writebacks + saved.toNat ≤ p.counters.reclaims + 1
        omega
      · show _ ≤ p.counters.writebacks + saved.toNat
        exact Nat.le_trans total (Nat.add_le_add_right copies _)
      · exact Nat.lt_of_lt_of_le (restored some) (Nat.le_add_right _ _)
      · rw [← balanced.objects]
        exact congrArg (· + t.freed) (length_revised p.objects later)
      · show max p.counters.peakResidentBytes (p.resident - oldest.len) = peak
        omega

theorem balanced_turns (ledger : Ledger p) (balanced : Balanced t pending loose peak p) (turns : Turns p q) :
    Balanced t pending loose peak q := by
  induction turns with
  | refl => exact balanced
  | tail before last ih => exact balanced_turn t pending loose peak _ _ (ledger_turns p _ ledger before) ih last

end

section

variable (t : Tally) (peak : Nat) (m supplied q : Pager) (o : Managed) (i : Nat) (bytes : Bytes)

theorem balanced_sourced (ledger : Ledger m) (balanced : Balanced t 1 0 peak m) (member : o ∈ m.objects)
    (inside : i < o.shape.chunks) (sourced : Sourced m o i bytes supplied) : Balanced t 0 1 peak supplied := by
  have faults := balanced.faults
  have brought := balanced.brought
  cases sourced with
  | restored s staging store isSaved =>
      have some := saved_total_pos m o i s (ledger.sound o member) member store inside isSaved
      refine ⟨?_, ?_, balanced.written, balanced.saved, fun _ => Nat.lt_of_lt_of_le some balanced.saved, balanced.objects,
        balanced.peak⟩
      · show m.counters.faults = m.counters.fills + (m.counters.restores + 1) + t.headers + 0
        omega
      · show m.counters.fills + (m.counters.restores + 1) =
          m.counters.reclaims + t.retired + m.live.length + t.found + 1
        omega
  | filled filler byte old staging unsaved given made size =>
      have copies := saved_total_revised m o { o with calls := o.calls + 1 } ledger.ids member rfl (Nat.le_refl _)
      refine ⟨?_, ?_, balanced.written, Nat.le_trans copies balanced.saved, balanced.restored, ?_, balanced.peak⟩
      · show m.counters.faults = m.counters.fills + 1 + m.counters.restores + t.headers + 0
        omega
      · show m.counters.fills + 1 + m.counters.restores = m.counters.reclaims + t.retired + m.live.length + t.found + 1
        omega
      · rw [← balanced.objects]
        exact congrArg (· + t.freed) (length_revised m.objects { o with calls := o.calls + 1 })

theorem balanced_fresh (ledger : Ledger m) (balanced : Balanced t 0 1 peak m) (member : o ∈ m.objects)
    (inside : i < o.shape.chunks) (queue : CircularQueue Residency)
    (records : queue.toList = m.queue.toList ++ [o.recordOf i bytes]) :
    Balanced t 0 0 (max peak (m.resident + (o.shape.piece i).fillLen)) (m.installing o i bytes queue) := by
  have live : (m.installing o i bytes queue).live.length = m.live.length + 1 := by
    rw [live_append m o i bytes _ inside records, List.length_append, List.length_singleton]
  have copies := saved_total_revised m o (o.withChunk i bytes) ledger.ids member rfl (Nat.le_refl _)
  refine ⟨balanced.faults, ?_, balanced.written, Nat.le_trans copies balanced.saved, balanced.restored, ?_,
    congrArg (max · _) balanced.peak⟩
  · rw [live]
    show m.counters.fills + m.counters.restores = m.counters.reclaims + t.retired + (m.live.length + 1) + t.found + 0
    have brought := balanced.brought
    omega
  · rw [← balanced.objects]
    exact congrArg (· + t.freed) (length_revised m.objects (o.withChunk i bytes))

theorem balanced_present (balanced : Balanced t 0 1 peak m) (queue : CircularQueue Residency)
    (records : queue.toList = m.queue.toList) :
    Balanced { t with found := t.found + 1 } 0 0 (max peak (m.resident + (o.shape.piece i).fillLen)) { m with
      queue
      counters := (m.counters.setResident (m.resident + (o.shape.piece i).fillLen)).setResident m.resident } := by
  have live : ({ m with queue } : Pager).live = m.live := by simp only [Pager.live, records]
  refine ⟨balanced.faults, ?_, balanced.written, balanced.saved, balanced.restored, balanced.objects, ?_⟩
  · show m.counters.fills + m.counters.restores =
      m.counters.reclaims + t.retired + ({ m with queue } : Pager).live.length + (t.found + 1) + 0
    rw [live]
    have brought := balanced.brought
    omega
  · show max (max m.counters.peakResidentBytes (m.resident + (o.shape.piece i).fillLen)) m.resident = _
    rw [balanced.peak]
    omega

end

section

variable (p q : Pager)

theorem installs_turns (turns : Turns p q) : q.installs = p.installs := by
  induction turns with
  | refl => rfl
  | tail before last ih =>
      rw [← ih]
      cases last with
      | retired => rfl
      | evicted => rfl

theorem installs_sourced (o : Managed) (i : Nat) (bytes : Bytes) (sourced : Sourced p o i bytes q) :
    q.installs = p.installs := by
  cases sourced with
  | restored => rfl
  | filled => rfl

variable (address : Nat) (ledger : Ledger p) (o : Managed) (member : o ∈ p.objects)

include ledger member

theorem target_of_holds (holds : o.entry.Holds address) : p.target? address =
    if address - o.mapping.base < o.shape.headerPadded then none
    else some (o.shape.piece ((address - o.mapping.base - o.shape.headerPadded) / o.shape.chunkLen)) := by
  have held := (Worker.holds_iff o address (ledger.sound o member)).mpr holds
  cases found : p.objects.find? fun o => o.mapping.holds address with
  | none => exact absurd held (List.find?_eq_none.mp found o member)
  | some x =>
      have xMember := List.mem_of_find?_eq_some found
      have xHeld := List.find?_some found
      have xHolds := (Worker.holds_iff x address (ledger.sound x xMember)).mp xHeld
      rw [target?, found, Option.bind_some, same_of_address p o x address ledger.toCatalogue member xMember holds xHolds]

theorem target_of_header (low : o.mapping.base ≤ address) (high : address - o.mapping.base < o.shape.headerPadded) :
    p.target? address = none := by
  have holds := o.holds_of_header address (ledger.sound o member) low high
  rw [target_of_holds p address ledger o member holds, if_pos high]

theorem target_of_body (k : Nat) (inside : k < o.shape.bodyReserved)
    (place : address = o.mapping.base + (o.shape.headerPadded + k)) :
    p.target? address = some (o.shape.piece (k / o.shape.chunkLen)) := by
  subst place
  have holds := o.holds_of_offset _ (ledger.sound o member) (Nat.add_lt_add_left inside o.shape.headerPadded)
  rw [target_of_holds p _ ledger o member holds, Nat.add_sub_cancel_left, Nat.add_sub_cancel_left,
    if_neg (Nat.not_lt.mpr (Nat.le_add_right _ _))]

end

theorem live_retired (p : Pager) (id : ObjectId) (wf : p.queue.WellFormed) :
    p.live.length = p.recordsOf id + (p.retiring id).live.length := by
  rw [live_retiring p id wf, ← List.countP_eq_length_filter]
  refine (List.length_eq_countP_add_countP (fun r : Residency => decide (r.owner = id))).trans ?_
  simp only [recordsOf, decide_eq_true_eq, decide_not]

section

variable (p q supplied : Pager) (address : Nat) (chunk : Chunk) (target : p.target? address = some chunk)
  (installs : supplied.installs = p.installs) (o : Managed) (i : Nat) (bytes : Bytes)

include target installs

theorem found_installing (queue : CircularQueue Residency) : p.found? (supplied.installing o i bytes queue) address = none := by
  have more : (supplied.installing o i bytes queue).installs = supplied.installs + 1 := List.countP_cons_of_pos rfl
  have other : (supplied.installing o i bytes queue).installs ≠ p.installs := by omega
  rw [found?, target, Option.filter_some, if_neg]
  exact fun same => other (beq_iff_eq.mp same)

theorem found_unchanged (queue : CircularQueue Residency) (counters : Counters) :
    p.found? { supplied with queue, counters } address = some chunk := by
  rw [found?, target, Option.filter_some]
  exact if_pos (beq_iff_eq.mpr installs)

end

theorem installs_supplied (p roomy supplied : Pager) (incoming : Nat) (now : Managed) (i : Nat) (bytes : Bytes)
    (room : MadeRoom p.noticed incoming roomy) (sourced : Sourced roomy now i bytes supplied) :
    supplied.installs = p.installs :=
  (installs_sourced roomy supplied now i bytes sourced).trans
    (installs_turns p.noticed roomy (turns_of_room p.noticed roomy incoming room))

theorem not_found_of_missing (p q : Pager) (address : Nat) (ledger : Ledger p) (missing : p.Missing address)
    (resolved : Resolved p address q) : (p.target? address).isNone = false ∧ p.found? q address = none := by
  obtain ⟨o, member, k, inside, place, absent⟩ := missing
  have target := target_of_body p address ledger o member k inside place
  refine ⟨by rw [target]; rfl, ?_⟩
  cases resolved with
  | header x xMember low high => cases target.symm.trans (target_of_header p address ledger x xMember low high)
  | body x now j calls bytes roomy supplied q xMember xPlace xInside room becomes nowMember sourced there installed =>
      obtain ⟨rfl, rfl⟩ := place_unique p address ledger.toCatalogue o x k j member xMember inside xInside place xPlace
      have noticed := ledger_noticed p ledger
      have turns := turns_of_room p.noticed roomy _ room
      obtain ⟨-, -, queue⟩ := ledgers_of_room p now _ _ bytes roomy supplied ledger room nowMember sourced
      cases installed with
      | fresh =>
          exact found_installing p supplied address _ target (installs_supplied p roomy supplied _ now _ bytes room sourced)
            { now with calls } _ bytes _
      | present _ wf records resident =>
          have before : roomy.Resident now.id (k / o.shape.chunkLen) := by
            simp only [Resident, live, queue] at resident
            exact resident
          exact absurd (becomes.id ▸ turns_fewer p.noticed roomy noticed turns now.id _ before) absent

section

variable (t : Tally) (peak : Nat) (p q : Pager) (ledger : Ledger p) (balanced : Balanced t 0 0 peak p)

include ledger balanced

theorem balanced_supplied (o now : Managed) (k : Nat) (bytes : Bytes) (roomy supplied : Pager)
    (inside : k < o.shape.bodyReserved)
    (room : MadeRoom p.noticed (o.shape.piece (k / o.shape.chunkLen)).fillLen roomy) (becomes : o.Becomes now)
    (nowMember : now ∈ roomy.objects) (sourced : Sourced roomy now (k / o.shape.chunkLen) bytes supplied) :
    Ledger supplied ∧ Balanced t 0 1 peak supplied := by
  have turns := turns_of_room p.noticed roomy _ room
  obtain ⟨roomyLedger, suppliedLedger, -⟩ := ledgers_of_room p now _ _ bytes roomy supplied ledger room nowMember sourced
  have chunk : k / o.shape.chunkLen < now.shape.chunks :=
    o.becomes_shape now becomes ▸ o.shape.chunk_of_offset_lt k inside
  have pending := balanced_turns t 1 0 peak p.noticed roomy (ledger_noticed p ledger) (balanced_noticed t peak p balanced) turns
  exact ⟨suppliedLedger, balanced_sourced t peak roomy supplied now _ bytes roomyLedger pending nowMember chunk sourced⟩

theorem balanced_answered (address : Nat) (after : Ledger q) (resolved : Resolved p address q) :
    Balanced (t.faulted p q address) 0 0 (max peak (max q.counters.residentBytes (p.surge q address))) q := by
  have level : q.counters.residentBytes ≤ q.counters.peakResidentBytes := after.published ▸ after.peak.1
  cases resolved with
  | header o member low high =>
      have none := target_of_header p address ledger o member low high
      have kept : p.noticed.counters.peakResidentBytes = peak := balanced.peak
      simp only [Tally.faulted, surge, found?, none, Option.isNone_none, Option.filter_none, Option.isSome_none, Option.elim,
        Bool.toNat_true, Bool.toNat_false, Nat.add_zero, Nat.max_zero]
      rw [Nat.max_eq_left (kept ▸ level)]
      refine ⟨?_, balanced.brought, balanced.written, balanced.saved, balanced.restored, balanced.objects, kept⟩
      have faults := balanced.faults
      show p.counters.faults + 1 = p.counters.fills + p.counters.restores + (t.headers + 1) + 0
      omega
  | body o now k calls bytes roomy supplied q member place inside room becomes nowMember sourced there installed =>
      obtain ⟨suppliedLedger, loose⟩ :=
        balanced_supplied t peak p ledger balanced o now k bytes roomy supplied inside room becomes nowMember sourced
      have installs := installs_supplied p roomy supplied _ now _ bytes room sourced
      have target := target_of_body p address ledger o member k inside place
      have shape := o.becomes_shape now becomes
      have chunk : k / o.shape.chunkLen < now.shape.chunks := shape ▸ o.shape.chunk_of_offset_lt k inside
      have piece : o.shape.piece (k / o.shape.chunkLen) = now.shape.piece (k / o.shape.chunkLen) := by rw [shape]
      rw [piece] at target
      generalize k / o.shape.chunkLen = i at target chunk installed
      cases installed with
      | fresh queue wf records absent =>
          have found := found_installing p supplied address _ target installs { now with calls } i bytes queue
          simp only [Tally.faulted, surge, found, target, Option.isNone_some, Option.isSome_none, Option.elim, Bool.toNat_false,
            Nat.add_zero, Nat.max_zero]
          exact balanced_fresh t peak supplied { now with calls } i bytes suppliedLedger loose there chunk queue records
      | present queue wf records resident =>
          have found := found_unchanged p supplied address _ target installs queue
            ((supplied.counters.setResident (supplied.resident + (now.shape.piece i).fillLen)).setResident supplied.resident)
          have present := balanced_present t peak supplied { now with calls } i loose queue records
          simp only [Managed.shape] at found present ⊢
          simp only [Tally.faulted, surge, found, target, Option.isNone_some, Option.isSome_some, Option.elim, Bool.toNat_false,
            Bool.toNat_true, Nat.add_zero]
          rw [Nat.max_eq_right (Nat.le_add_right _ _)]
          exact present

theorem balanced_failed (host : Host) (address : Nat) (failure : Failure)
    (stops : FaultStops host p address (.failed failure) q) :
    (failure.OfInstalling → q.counters.faults = q.counters.fills + q.counters.restores + t.headers) ∧
    (¬ failure.OfInstalling → q.counters.faults = q.counters.fills + q.counters.restores + t.headers + 1) := by
  have noticed := ledger_noticed p ledger
  have pending := balanced_noticed t peak p balanced
  have unsettled (roomy : Pager) (turns : Turns p.noticed roomy) :=
    (balanced_turns t 1 0 peak p.noticed roomy noticed pending turns).faults
  cases stops with
  | nowhere none => exact ⟨False.elim, fun _ => pending.faults⟩
  | unzeroed o member low high cause refused => exact ⟨fun own => absurd own (by simp [Failure.OfInstalling]),
      fun _ => pending.faults⟩
  | bringIn o k halt q member inside place stops =>
      cases stops with
      | full halt q short =>
          cases short with
          | exhausted q above pass fits large nothing =>
              exact ⟨False.elim, fun _ => unsettled q (turns_of_pass p.noticed q _ pass)⟩
          | stalled halt q stalls =>
              obtain ⟨last, queue, pass, unreleased⟩ := stalls
              obtain ⟨cause, same⟩ := unreleased.cause
              obtain ⟨writebacks, counters⟩ := unreleased.counters
              cases same
              rw [counters]
              exact ⟨fun own => absurd own (by simp [Failure.OfInstalling]),
                fun _ => unsettled last (turns_of_pass p.noticed last _ pass)⟩
      | unfilled roomy halt q room failed =>
          have turns := turns_of_room p.noticed roomy _ room
          cases failed with
          | missing _ none journal left =>
              rw [(fruitless_frame roomy q o.id left).2.1]
              exact ⟨False.elim, fun _ => unsettled roomy turns⟩
          | failed _ code fails journal left =>
              rw [(fruitless_frame roomy q o.id left).2.1]
              exact ⟨False.elim, fun _ => unsettled roomy turns⟩
      | uninstalled now calls bytes roomy supplied halt q room becomes nowMember sourced there failed =>
          obtain ⟨-, loose⟩ :=
            balanced_supplied t peak p ledger balanced o now k bytes roomy supplied inside room becomes nowMember sourced
          obtain ⟨cause, same⟩ := failed.cause
          obtain ⟨-, -, -, rfl⟩ := failed.left
          rcases same with same | same
          · cases same
            exact ⟨fun _ => loose.faults, fun other => absurd (.inl rfl) other⟩
          · cases same
            exact ⟨fun _ => loose.faults, fun other => absurd (.inr rfl) other⟩

theorem balanced_stored (o : Managed) (offset : Nat) (b : UInt8) (member : o ∈ p.objects) :
    Balanced t 0 0 peak { p with objects := revised p.objects (o.withByte offset b) } := by
  have saved := saved_total_revised p o (o.withByte offset b) ledger.ids member rfl (Nat.le_refl _)
  refine ⟨balanced.faults, balanced.brought, balanced.written, Nat.le_trans saved balanced.saved, balanced.restored, ?_,
    balanced.peak⟩
  show (revised p.objects (o.withByte offset b)).length + t.freed = t.granted
  rw [length_revised]
  exact balanced.objects

theorem balanced_served (host : Host) (request : Request) (reply : Reply)
    (fresh : ∀ id template, request = .allocate id template → ∀ o ∈ p.objects, o.id ≠ id)
    (served : Served host p request reply q) : Balanced (t.served p request reply) 0 0 peak q := by
  have brought := balanced.brought
  have objects := balanced.objects
  have peaked := balanced.peak
  have below : ∀ n, n ≤ p.resident → max p.counters.peakResidentBytes n = peak := fun n fewer => by
    have highest := ledger.peak.1
    omega
  cases served with
  | allocated id template grant q allocated =>
      obtain ⟨base, swap, index, placed, sound, listed, affordable, opens⟩ := allocated
      have kept : (p.objects.filter fun x => x.id ≠ id) = p.objects :=
        List.filter_eq_self.mpr fun x member => decide_eq_true (fresh id template rfl x member)
      refine ⟨balanced.faults, brought, balanced.written, ?_, balanced.restored, ?_, peaked⟩
      · have none := saved_count_fresh host _ id template base swap opens
        have total := saved_total_without p fun x => x.id ≠ id
        have saved := balanced.saved
        show ((freshObject id template base swap :: p.objects.filter fun x => x.id ≠ id).map Managed.savedCount).sum ≤
          p.counters.writebacks
        rw [List.map_cons, List.sum_cons]
        omega
      · show (freshObject id template base swap :: p.objects.filter fun x => x.id ≠ id).length + t.freed = t.granted + 1
        rw [kept, List.length_cons]
        omega
  | refused request failure => cases request <;> exact balanced
  | freed o index member sound removed =>
      have live := live_retired p o.id ledger.queue
      refine ⟨balanced.faults, ?_, balanced.written, ?_, balanced.restored, ?_, below _ (Nat.sub_le _ _)⟩
      · show p.counters.fills + p.counters.restores =
          p.counters.reclaims + (t.retired + p.recordsOf o.id) + (p.retiring o.id).live.length + t.found + 0
        omega
      · exact Nat.le_trans (saved_total_without p fun x => x.id ≠ o.id) balanced.saved
      · have left := length_without p o ledger.ids member
        show (p.objects.filter fun x => x.id ≠ o.id).length + (t.freed + 1) = t.granted
        omega
  | emptied o member =>
      have live := live_retired p o.id ledger.queue
      have copies : (cleared o).savedCount ≤ o.savedCount := o.saved_count_cleared (ledger.sound o member) ▸ Nat.zero_le _
      have total := saved_total_revised p o (cleared o) ledger.ids member (cleared_becomes o).id copies
      refine ⟨balanced.faults, ?_, balanced.written, Nat.le_trans total balanced.saved, balanced.restored, ?_,
        below _ (Nat.sub_le _ _)⟩
      · show p.counters.fills + p.counters.restores =
          p.counters.reclaims + (t.retired + p.recordsOf o.id) + (p.retiring o.id).live.length + t.found + 0
        omega
      · show (revised p.objects (cleared o)).length + t.freed = t.granted
        rw [length_revised]
        exact objects

end

theorem balanced_level (t : Tally) (high surge : Nat) (p : Pager) (ledger : Ledger p)
    (balanced : Balanced t 0 0 (max high surge) p) :
    Balanced t 0 0 (max (max high p.counters.residentBytes) (max surge 0)) p := by
  have below : p.counters.residentBytes ≤ max high surge := by
    rw [ledger.published, ← balanced.peak]
    exact ledger.peak.1
  rw [Nat.max_zero, Nat.max_right_comm, Nat.max_eq_left below]
  exact balanced

end Pager

namespace Worker

open Pager

-- The tally when one more thing was done. Only requests and faults that were answered count.
def tallied (t : Tally) (w : Worker) : Act → Tally
  | .fault host address =>
    match (resolve host (address / Page.size * Page.size)).run w.pager with
    | .ok _ q => t.faulted w.pager q (address / Page.size * Page.size)
    | .error _ _ => t
  | a =>
    match w.answering? a with
    | some (request, reply) => t.served w.pager request reply
    | none => t

def surge (w : Worker) : Act → Nat
  | .fault host address =>
    match (resolve host (address / Page.size * Page.size)).run w.pager with
    | .ok _ q => w.pager.surge q (address / Page.size * Page.size)
    | .error _ _ => 0
  | _ => 0

def tally : Log → Tally
  | [] => .zero
  | (w, a) :: log => tallied (tally log) w a

def highest : Log → Worker → Nat
  | [], w => w.pager.counters.residentBytes
  | (v, _) :: log, w => max (highest log v) w.pager.counters.residentBytes

def highestSurge : Log → Nat
  | [] => 0
  | (w, a) :: log => max (highestSurge log) (w.surge a)

theorem retired_of_fault (t : Tally) (w : Worker) (host : Host) (address : Nat) :
    (tallied t w (.fault host address)).retired = t.retired := by
  simp only [tallied]
  split <;> rfl

section

variable (settings : Settings) (log : Log) (w : Worker)

theorem balanced_of_logged (logged : Logged settings log w) (serving : w.Serving) :
    Balanced (tally log) 0 0 (max (highest log w) (highestSurge log)) w.pager := by
  induction logged with
  | started w start =>
      obtain ⟨p, started, rfl⟩ := start_eq settings w start
      have balanced := balanced_level .zero 0 0 p (ledger_start settings p started) (balanced_start p settings started)
      rw [Nat.zero_max] at balanced
      exact balanced
  | acted log w a before allowed ih =>
      have earlier := serving_of_act w a serving
      have ledger := (keeps_of_logged settings log w before earlier).ledger
      have after := (keeps_of_logged settings _ _ (.acted log w a before allowed) serving).ledger
      have balanced := ih earlier
      cases a with
      | send request => exact balanced_level _ _ _ _ after balanced
      | advance host =>
          rcases advance_answering host allowed.2.1 w ledger serving with
            ⟨none, same⟩ | ⟨ticket, request, mailbox, reply, taken, some, served⟩
          · simp only [tally, tallied, none]
            refine balanced_level _ _ _ _ after ?_
            rw [act, same]
            exact balanced
          · simp only [tally, tallied, some]
            have fresh : ∀ id template, request = .allocate id template → ∀ o ∈ w.pager.objects, o.id ≠ id := by
              rintro id template rfl
              exact allowed.2.2 ticket id template mailbox taken
            exact balanced_level _ _ _ _ after
              (balanced_served (tally log) _ w.pager _ ledger balanced host request reply fresh served)
      | fault host address =>
          obtain ⟨q, run, after, resolved⟩ := resolved_of_serving host w address ledger serving
          have answered := balanced_answered (tally log) _ w.pager q ledger balanced _ after resolved
          simp only [tally, tallied, highest, highestSurge, Worker.surge, run, act, fault_answered host w address q run]
          rw [show ∀ a b c d, max (max a b) (max c d) = max (max a c) (max b d) by omega]
          exact answered
      | store address b =>
          obtain ⟨⟨m, found⟩, -⟩ := allowed
          obtain ⟨o, member, holds, rfl⟩ := (mapping_at_iff w address m ledger).mp found
          refine balanced_level _ _ _ _ after ?_
          rw [act, modify_mapping_eq w o address _ ledger member holds]
          exact balanced_stored (tally log) _ w.pager ledger balanced o (address - o.mapping.base) b member

theorem settled_of_missing (host : Host) (address : Nat) (logged : Logged settings log w) (faults : w.Faults address) :
    (tallied (tally log) w (.fault host address)).headers = (tally log).headers ∧
    (tallied (tally log) w (.fault host address)).found = (tally log).found ∧ w.surge (.fault host address) = 0 := by
  have serving := serving_of_faults settings log w logged address faults
  have ledger := (keeps_of_logged settings log w logged serving).ledger
  have missing := missing_of_logged settings log w logged address faults
  have ensures := resolve_ensures host w.pager (address / Page.size * Page.size) ledger
  cases run : (resolve host (address / Page.size * Page.size)).run w.pager with
  | error halt q =>
      simp only [tallied, surge, run]
      exact ⟨trivial, trivial, trivial⟩
  | ok _ q =>
      obtain ⟨-, resolved⟩ := ensures_result _ _ _ _ _ _ ensures run
      obtain ⟨target, found⟩ := not_found_of_missing w.pager q _ ledger missing resolved
      simp only [tallied, surge, run, Tally.faulted, Pager.surge, found, target]
      exact ⟨rfl, rfl, rfl⟩

theorem settled_of_logged (logged : Logged settings log w)
    (missing : ∀ v host address, (v, .fault host address) ∈ log → v.Faults address) :
    (tally log).headers = 0 ∧ (tally log).found = 0 ∧ highestSurge log = 0 := by
  induction logged with
  | started w start => exact ⟨rfl, rfl, rfl⟩
  | acted log w a before allowed ih =>
      obtain ⟨headers, found, surges⟩ := ih fun v host address member => missing v host address (List.mem_cons_of_mem _ member)
      have kept : (tallied (tally log) w a).headers = (tally log).headers ∧
          (tallied (tally log) w a).found = (tally log).found ∧ w.surge a = 0 := by
        cases a with
        | fault host address =>
            exact settled_of_missing settings log w host address before
              (missing w host address List.mem_cons_self)
        | send request => exact ⟨rfl, rfl, rfl⟩
        | store address b => exact ⟨rfl, rfl, rfl⟩
        | advance host =>
            simp only [tallied, surge]
            split
            · exact ⟨(Tally.served_faults _ _ _ _).1, (Tally.served_faults _ _ _ _).2, trivial⟩
            · exact ⟨rfl, rfl, trivial⟩
      exact ⟨kept.1.trans headers, kept.2.1.trans found, by rw [highestSurge, surges, kept.2.2]; rfl⟩

-- Where every fault came at a missing page, none of them was at a header or found its chunk there.
theorem counters_of_logged (logged : Logged settings log w) :
    (w.Serving → w.pager.counters.faults = w.pager.counters.fills + w.pager.counters.restores + (tally log).headers ∧
      w.pager.counters.fills + w.pager.counters.restores =
        w.pager.counters.reclaims + (tally log).retired + w.pager.live.length + (tally log).found ∧
      w.pager.counters.writebacks ≤ w.pager.counters.reclaims ∧
      (w.pager.objects.map fun o => (o.swap.map SwapStore.dirtyCount).getD 0).sum ≤ w.pager.counters.writebacks ∧
      (0 < w.pager.counters.restores → 0 < w.pager.counters.writebacks) ∧
      w.pager.counters.liveObjects + (tally log).freed = (tally log).granted ∧
      w.pager.counters.residentBytes ≤ w.pager.counters.peakResidentBytes ∧
      w.pager.counters.peakResidentBytes = max (highest log w) (highestSurge log)) ∧
    (∀ later older v host address failure, log = later ++ (v, .fault host address) :: older →
      (v.fault host address).station = .refusing (.error failure) →
      (failure.OfInstalling →
        w.pager.counters.faults = w.pager.counters.fills + w.pager.counters.restores + (tally older).headers) ∧
      (¬ failure.OfInstalling →
        w.pager.counters.faults = w.pager.counters.fills + w.pager.counters.restores + (tally older).headers + 1)) ∧
    ((∀ v host address, (v, .fault host address) ∈ log → v.Faults address) →
      (tally log).headers = 0 ∧ (tally log).found = 0 ∧ highestSurge log = 0) := by
  refine ⟨fun serving => ?_, ?_, settled_of_logged settings log w logged⟩
  · have balanced := balanced_of_logged settings log w logged serving
    have ledger := (keeps_of_logged settings log w logged serving).ledger
    have counted : w.pager.counters.liveObjects = w.pager.objects.length := counted_of_logged settings log w logged serving
    refine ⟨balanced.faults, balanced.brought, balanced.written, balanced.saved, balanced.restored, ?_, ?_, balanced.peak⟩
    · rw [counted]
      exact balanced.objects
    · rw [ledger.published]
      exact ledger.peak.1
  · rintro later older v host address failure rfl ends
    obtain ⟨before, serving⟩ := logged_split settings older v (.fault host address) later w logged
    have ended : ¬ (v.fault host address).Serving := by simp only [Serving, ends, not_false_eq_true]
    obtain ⟨-, -, after⟩ := pager_after settings older v (.fault host address) later w ended logged
    obtain ⟨q, -, fails, stops⟩ := stops_of_logged settings older v before host address failure serving ends
    rw [act, fails] at after
    rw [after]
    exact balanced_failed (tally older) _ v.pager q (keeps_of_logged settings older v before serving).ledger
      (balanced_of_logged settings older v before serving) host _ failure stops

end

end Worker

end DemandPaging

namespace DemandPaging.Worker

open Pager

-- A page is touched again while it is there. The filler is called twice, and there is one record.
theorem fills_exceed_records : ¬ ∀ (settings : Settings) (log : Log) (w : Worker), Logged settings log w → w.Serving →
    w.pager.counters.fills + w.pager.counters.restores =
      w.pager.counters.reclaims + (tally log).retired + w.pager.live.length := by
  intro plain
  have logged := logged_of_moves .twoPages _ (Host.plain_orderly []) (Host.plain_yields []).releases allotting []
    (unused .twoPages) (.started _ rfl) (by decide +kernel)
  obtain ⟨p, first, lone, came⟩ := lone_touched allotted serving_allotted lone_allotted
  obtain ⟨q, second, twice, stayed⟩ := lone_touched { allotted with pager := p, interrupts := 0 } serving_allotted lone
  have once := Logged.acted _ _ (.fault (Host.plain []) Host.lowest) logged serving_allotted
  rw [act, show (unused .twoPages).makes (Host.plain []) allotting = allotted from rfl, first] at once
  have again := Logged.acted _ _ (.fault (Host.plain []) Host.lowest) once serving_allotted
  rw [act, second] at again
  have brought := (balanced_of_logged .twoPages _ allotted logged serving_allotted).brought
  obtain ⟨fills, restores⟩ : allotted.pager.counters.fills = 0 ∧ allotted.pager.counters.restores = 0 := by decide +kernel
  have equal := plain _ _ _ again serving_allotted
  rw [tally, retired_of_fault, tally, retired_of_fault] at equal
  have few := lone_live q twice
  have others := stayed.others
  have before := came.others
  have one := stayed.fills
  have zero := came.fills
  dsimp only at equal one zero others before
  omega

attribute [local instance] Platform.small

theorem counters_of_fifth_call : ∃ log, Logged .threePages log (pressed 4) ∧
    (pressed 4).pager.counters.faults = 5 ∧ (pressed 4).pager.counters.restores = 1 ∧ (pressed 4).pager.live.length = 3 ∧
    (pressed 4).pager.counters.faults = (pressed 4).pager.counters.fills + (pressed 4).pager.counters.restores +
      (tally log).headers ∧
    (pressed 4).pager.counters.fills + (pressed 4).pager.counters.restores =
      (pressed 4).pager.counters.reclaims + (tally log).retired + (pressed 4).pager.live.length + (tally log).found ∧
    ((pressed 4).fault (Host.plain []) 65544).pager.counters.faults =
      ((pressed 4).fault (Host.plain []) 65544).pager.counters.fills +
        ((pressed 4).fault (Host.plain []) 65544).pager.counters.restores + (tally log).headers + 1 := by
  obtain ⟨log, logged⟩ := logged_pressed
  have serving : (pressed 4).Serving := by decide +kernel
  have touched := Logged.acted log (pressed 4) (.fault (Host.plain []) 65544) logged serving
  have failed : ((pressed 4).fault (Host.plain []) 65544).station = .refusing (.error (.populate 1 2 5)) :=
    Station.refusing_of_failure _ _ (by decide +kernel)
  obtain ⟨settled, brought, -⟩ := (counters_of_logged .threePages log (pressed 4) logged).1 serving
  have unsettled := ((counters_of_logged .threePages _ _ touched).2.1 [] log _ _ _ _ rfl failed).2 id
  exact ⟨log, logged, by decide +kernel, by decide +kernel, by decide +kernel, settled, brought, unsettled⟩

end DemandPaging.Worker
