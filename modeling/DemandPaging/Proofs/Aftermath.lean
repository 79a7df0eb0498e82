import DemandPaging.Proofs.FailedFaults
import DemandPaging.Proofs.LateRequests
import DemandPaging.Proofs.SavedCopies

set_option autoImplicit false

namespace DemandPaging

theorem Counters.without_objects (c : Counters) : (c.setResident 0).setLive 0 =
    { c with residentBytes := 0, liveObjects := 0 } := by
  rw [setResident, Nat.max_eq_left (Nat.zero_le _), setLive]

variable [Platform]

-- What byte `k` of an object is when the pager has failed in the state `q`. What was evicted is lost, its saved copy too.
def Managed.survives (o : Managed) (q : Pager) (k : Nat) : UInt8 :=
  if k < o.shape.headerPadded ∨ q.Resident o.id ((k - o.shape.headerPadded) / o.shape.chunkLen) then o.mapping.bytes.byte k
  else 0

namespace Pager

section

variable (p q roomy : Pager) (o : Managed) (k : Nat) (ledger : Ledger p) (member : o ∈ p.objects) (inside : k < o.shape.size)

include ledger member inside

theorem byte_survives (x : Managed) (taken : List Residency) (after : Ledger roomy) (passed : Passed p taken roomy)
    (xMember : x ∈ roomy.objects) (same : x.id = o.id) : x.mapping.bytes.byte k = o.survives roomy k := by
  have relinquished := passed.objects o member x xMember same
  by_cases header : k < o.shape.headerPadded
  · rw [Managed.survives, if_pos (Or.inl header)]
    apply SparseBytes.byte_congr
    apply relinquished.untouched
    exact fun i _ has => o.shape.piece_behind_header i _ (o.shape.header_page k header) has.1
  · obtain ⟨d, rfl⟩ := Nat.exists_eq_add_of_le (Nat.le_of_not_lt header)
    have body : d < o.shape.bodyReserved := Nat.lt_of_add_lt_add_left inside
    rw [Managed.survives, Nat.add_sub_cancel_left]
    by_cases resident : roomy.Resident o.id (d / o.shape.chunkLen)
    · rw [if_pos (Or.inr resident)]
      exact o.byte_relinquished x taken relinquished d body (kept_of_resident p roomy taken ledger o _ passed resident)
    · have shape : x.shape = o.shape := by rw [Managed.shape, o.template_relinquished x taken relinquished]
      have present := after.present x xMember d (shape ▸ body)
      rw [Managed.hasBody, Mapping.isPresent, shape, same] at present
      rw [if_neg fun either => either.elim header resident]
      exact SparseBytes.byte_of_absent _ _ (Bool.eq_false_iff.mpr fun there => resident (present.mp there))

theorem left_of_broken (x : Managed) (i : Nat) (storeless : p.Storeless) (broken : Broken p x i roomy q) :
    ∃ m, ((q.objects.map Managed.mapping).find? fun m => m.holds (o.mapping.base + k)) = some m ∧
      m.base = o.mapping.base ∧ m.bytes.byte k = o.survives q k := by
  have noticed := ledger_noticed p ledger
  have after := ledger_turns _ roomy noticed broken.turns
  obtain ⟨taken, passed⟩ := passed_turns p.noticed roomy noticed storeless broken.turns
  obtain ⟨-, -, mappings⟩ := fruitless_frame roomy q x.id broken.left
  have listed : o.id ∈ roomy.objects.map Managed.id := passed.ids ▸ List.mem_map_of_mem member
  obtain ⟨y, yMember, same⟩ := List.mem_map.mp listed
  have relinquished := passed.objects o member y yMember same
  have base : y.mapping.base = o.mapping.base := by rw [relinquished.rest]
  have shape : y.shape = o.shape := by rw [Managed.shape, o.template_relinquished y taken relinquished]
  have holds := base ▸ y.holds_of_offset k (after.sound y yMember) (shape ▸ inside)
  have found := (Worker.mapping_at_iff ⟨roomy, .empty, .waiting, 0⟩ _ y.mapping after).mpr ⟨y, yMember, holds, rfl⟩
  rw [Worker.mappingAt?, Worker.mappings, after.remains, List.append_nil, ← mappings] at found
  have survives : o.survives q k = o.survives roomy k :=
    if_congr (or_congr_right (by rw [resident_fruitless roomy q x.id broken.left])) rfl rfl
  have byte := byte_survives p.noticed roomy o k noticed member inside y taken after passed yMember same
  exact ⟨y.mapping, found, base, byte.trans survives.symm⟩

end

theorem lost_of_broken (p q roomy : Pager) (x : Managed) (i : Nat) (ledger : Ledger p) (storeless : p.Storeless)
    (broken : Broken p x i roomy q) :
    ∃ taken, p.queue.toList = taken ++ q.queue.toList ∧ ∀ r ∈ taken, 0 < r.len → ¬ q.Resident r.owner r.chunk := by
  have noticed := ledger_noticed p ledger
  obtain ⟨taken, passed⟩ := passed_turns p.noticed roomy noticed storeless broken.turns
  obtain ⟨queue, -, -⟩ := fruitless_frame roomy q x.id broken.left
  refine ⟨taken, queue ▸ passed.queue, fun r gone positive resident => ?_⟩
  have isLive : r ∈ p.noticed.live :=
    List.mem_filter.mpr ⟨passed.queue ▸ List.mem_append_left _ gone, decide_eq_true positive⟩
  obtain ⟨o, member, of⟩ := noticed.owned r isLive
  rw [resident_fruitless roomy q x.id broken.left, of.owner] at resident
  exact kept_of_resident p.noticed roomy taken noticed o r.chunk passed resident ⟨r, gone, positive, of.owner, rfl⟩

end Pager

namespace Worker

open Pager

-- The byte at an address after what is in a log: the one that was stored there last, or else the old one.
def lastStored (address : Nat) (old : UInt8) : Log → UInt8
  | [] => old
  | (_, .store place b) :: older => if place = address then b else lastStored address old older
  | _ :: older => lastStored address old older

theorem writes_place (a : Act) (m : Mapping) : (writes a m).base = m.base ∧ (writes a m).len = m.len := by
  cases a with
  | store address b =>
      simp only [writes]
      split <;> exact ⟨rfl, rfl⟩
  | _ => exact ⟨rfl, rfl⟩

theorem written_place (log : Log) (m : Mapping) : (written log m).base = m.base ∧ (written log m).len = m.len := by
  induction log with
  | nil => exact ⟨rfl, rfl⟩
  | cons last older ih =>
      obtain ⟨base, len⟩ := writes_place last.2 (written older m)
      exact ⟨base.trans ih.1, len.trans ih.2⟩

theorem holds_written (log : Log) (m : Mapping) (address : Nat) : (written log m).holds address = m.holds address := by
  obtain ⟨base, len⟩ := written_place log m
  rw [Mapping.holds, Mapping.holds, base, len]

theorem byte_written (log : Log) (m : Mapping) (address : Nat) (holds : m.holds address = true) :
    (written log m).bytes.byte (address - m.base) = lastStored address (m.bytes.byte (address - m.base)) log := by
  induction log with
  | nil => rfl
  | cons last older ih =>
      obtain ⟨v, a⟩ := last
      cases a with
      | store place b =>
          obtain ⟨base, -⟩ := written_place older m
          simp only [written, writes, lastStored, holds_written, base]
          by_cases same : place = address
          · subst same
            rw [if_pos holds, if_pos rfl, SparseBytes.byte_setByte, if_pos rfl]
          · rw [if_neg same, ← ih]
            -- The byte was stored at another place in the mapping, or outside of it.
            split
            · rename_i placeHolds
              simp only [Mapping.holds, Bool.and_eq_true, decide_eq_true_eq] at holds placeHolds
              rw [SparseBytes.byte_setByte, if_neg (by omega)]
            · rfl
      | _ => exact ih

structure Bare (remains : List Mapping) (log : Log) (v : Worker) : Prop where
  objects : v.pager.objects = []
  watched : v.pager.watched = []
  remains : v.pager.remains = remains.map (written log)

section

variable (remains : List Mapping) (log : Log) (v : Worker) (bare : Bare remains log v)

include bare

theorem mapping_bare (address : Nat) : v.mappingAt? address = (remains.find? fun m => m.holds address).map (written log) := by
  have holds : ((fun m : Mapping => m.holds address) ∘ written log) = fun m => m.holds address :=
    funext fun m => holds_written log m address
  rw [mappingAt?, mappings, bare.objects, bare.remains, List.map_nil, List.nil_append, List.find?_map, holds]

theorem not_faults_bare (address : Nat) : ¬ v.Faults address := by
  rintro ⟨m, -, -, watched⟩
  rw [bare.watched] at watched
  cases watched

theorem touch_bare (host : Host) (address : Nat) : v.touch host address = v := by
  rw [touch]
  split
  · rfl
  · rw [bare.watched, List.contains_nil, Bool.not_false, Bool.or_true, if_pos rfl]

theorem write_bare (host : Host) (address : Nat) (b : UInt8) (rest : List UInt8) :
    v.write host address (b :: rest) = (v.act (.store address b)).write host (address + 1) rest := by
  rw [write, touch_bare remains log v bare]
  rfl

theorem bare_stored (u : Worker) (address : Nat) (b : UInt8) :
    Bare remains ((u, .store address b) :: log) (v.act (.store address b)) := by
  refine ⟨?_, bare.watched, ?_⟩
  · simp only [act, modifyMapping, bare.objects, List.map_nil]
  · simp only [act, modifyMapping, bare.remains, List.map_map]
    rfl

variable (base size : Nat) (old : Nat → UInt8)
  (left : ∀ k, k < size → ∃ m, (remains.find? fun m => m.holds (base + k)) = some m ∧ m.base = base ∧ m.bytes.byte k = old k)

include left

theorem found_bare (k : Nat) (inside : k < size) : ∃ m, v.mappingAt? (base + k) = some m ∧ m.base = base ∧
    m.bytes.byte k = lastStored (base + k) (old k) log := by
  obtain ⟨m, found, place, byte⟩ := left k inside
  have holds := List.find?_some found
  have last := byte_written log m (base + k) holds
  rw [place, Nat.add_sub_cancel_left, byte] at last
  refine ⟨written log m, ?_, (written_place log m).1.trans place, last⟩
  rw [mapping_bare remains log v bare, found, Option.map_some]

theorem read_bare (host : Host) (k n : Nat) (inside : k + n ≤ size) :
    v.read host (base + k) n = (Array.ofFn fun i : Fin n => lastStored (base + (k + i)) (old (k + i)) log, v) := by
  induction n with
  | zero => rw [read, Array.ofFn_zero]
  | succ n ih =>
      obtain ⟨m, found, place, byte⟩ := found_bare remains log v bare base size old left (k + n) (by omega)
      rw [read, ih (by omega), Array.ofFn_succ]
      simp only [touch_bare remains log v bare, Nat.add_assoc, found, place, Nat.add_sub_cancel_left, byte]
      rfl

theorem read_one_bare (host : Host) (k : Nat) (inside : k < size) :
    v.read host (base + k) 1 = (#[lastStored (base + k) (old k) log], v) := by
  obtain ⟨m, found, place, byte⟩ := found_bare remains log v bare base size old left k inside
  rw [read_one, touch_bare remains log v bare, found, Option.elim, place, Nat.add_sub_cancel_left, byte]

end

theorem run_after (host : Host) (steps : Nat) (w : Worker) (ended : ¬ w.Serving) : (run host steps w).pager = w.pager := by
  induction steps generalizing w with
  | zero => rfl
  | succ steps ih =>
      obtain ⟨still, same, -⟩ := ended_advance host w ended
      exact (ih _ still).trans same

-- A worker `v` at any time after `w` failed in a fault, with what was done since; `q` is the pager when the failure arose.
structure Aftermath (w : Worker) (q : Pager) (later : Log) (v : Worker) : Prop where
  reads : ∀ host, ∀ o ∈ w.pager.objects, ∀ k n, k + n ≤ o.shape.size → v.read host (o.mapping.base + k) n =
    (Array.ofFn fun i : Fin n => lastStored (o.mapping.base + (k + i)) (o.survives q (k + i)) later, v)
  writes : ∀ host, ∀ o ∈ w.pager.objects, ∀ k, k < o.shape.size → ∀ b rest,
    v.Allows (.store (o.mapping.base + k) b) ∧ v.write host (o.mapping.base + k) (b :: rest) =
      (v.act (.store (o.mapping.base + k) b)).write host (o.mapping.base + k + 1) rest
  touches : ∀ host address, v.touch host address = v
  counters : v.pager.counters = { q.counters with residentBytes := 0, liveObjects := 0 }
  journal : v.pager.journal = q.journal
  told : ∀ i request reply, w.mailbox.received? i = none → v.mailbox.asked i = some request →
    v.mailbox.received? i = some reply → request.Unserved reply
  answers : ∀ host request, request.Unserved (v.call host request).1 ∧
    ∃ reply, ((v.send request).2.settle host).mailbox.received? v.mailbox.tickets.size = some reply

section

variable (settings : Settings) (older later : Log) (w v : Worker) (host : Host) (address : Nat)
  (logged : Logged settings (later ++ (w, .fault host address) :: older) v) (ended : ¬ (w.fault host address).Serving)

include logged ended

theorem requests_after :
    (∀ i request reply, (w.fault host address).mailbox.received? i = none → v.mailbox.asked i = some request →
      v.mailbox.received? i = some reply → request.Unserved reply) ∧
    ∀ host request, request.Unserved (v.call host request).1 ∧
      ∃ reply, ((v.send request).2.settle host).mailbox.received? v.mailbox.tickets.size = some reply := by
  obtain ⟨before, allowed⟩ := logged_split settings older w (.fault host address) later v logged
  obtain ⟨x, reached, same, rung⟩ :=
    Exchange.reached_of_logged settings _ _ (.acted older w (.fault host address) before allowed)
  obtain ⟨y, leads, rfl, yRung⟩ := Exchange.leads_of_logged settings older w (.fault host address) later v x same rung logged
  have stopped := (pager_after settings older w (.fault host address) later _ ended logged).1
  rw [← show x.worker = w.fault host address from same] at ended ⊢
  refine ⟨fun i request reply waits asked told => ?_, fun host request => ?_⟩
  · exact Exchange.unserved_of_later settings x reached ended y leads i request reply waits asked told
  · have yReached := Exchange.reached_of_leads settings x y reached leads
    obtain ⟨reply, -, unserved, told⟩ := Exchange.answers_late settings y yReached stopped yRung host request
    exact ⟨unserved, reply, told⟩

end

section

variable (w : Worker) (q : Pager) (failure : Failure) (host : Host) (o : Managed) (k : Nat) (ledger : Ledger w.pager)
  (member : o ∈ w.pager.objects) (inside : k < o.shape.size) (missing : o.mapping.isPresent k = false)
  (fails : w.fault host (o.mapping.base + k) = finish { w with pager := q, interrupts := 0 } (.error failure))
  (left : ∀ j, j < o.shape.size → ∃ m, ((q.objects.map Managed.mapping).find? fun m => m.holds (o.mapping.base + j)) = some m ∧
    m.base = o.mapping.base ∧ m.bytes.byte j = o.survives q j)

include ledger member inside missing fails left

theorem touch_completes (b : UInt8) :
    w.read host (o.mapping.base + k) 1 = (#[0], (w.fault host (o.mapping.base + k)).settle host) ∧
    (w.write host (o.mapping.base + k) [b]).read host (o.mapping.base + k) 1 =
      (#[b], w.write host (o.mapping.base + k) [b]) := by
  have touched : w.touch host (o.mapping.base + k) = (w.fault host (o.mapping.base + k)).settle host := by
    rw [touch_object host w o k ledger member inside, missing, if_neg Bool.false_ne_true]
  have ended : ¬ (w.fault host (o.mapping.base + k)).Serving := by
    rw [fails]
    exact id
  have bare : Bare (q.objects.map Managed.mapping) [] ((w.fault host (o.mapping.base + k)).settle host) := by
    have same : ((w.fault host (o.mapping.base + k)).settle host).pager = q.teardown true := by
      rw [settle, run_after host _ _ ended, fails]
      rfl
    exact ⟨by rw [same]; rfl, by rw [same]; rfl, by rw [same]; exact (List.map_id' _).symm⟩
  generalize (w.fault host (o.mapping.base + k)).settle host = u at touched bare
  constructor
  · obtain ⟨m, found, place, byte⟩ := found_bare _ [] u bare o.mapping.base o.shape.size (o.survives q) left k inside
    have zero : o.survives q k = 0 := by
      rw [Managed.survives, SparseBytes.byte_of_absent _ _ missing, ite_self]
    rw [read_one, touched, found, Option.elim, place, Nat.add_sub_cancel_left, byte, zero]
    rfl
  · have written : w.write host (o.mapping.base + k) [b] = u.act (.store (o.mapping.base + k) b) := by
      rw [write, touched]
      rfl
    rw [written, read_one_bare _ _ _ (bare_stored _ [] u bare u (o.mapping.base + k) b) o.mapping.base o.shape.size
      (o.survives q) left host k inside, lastStored, if_pos rfl]

end

-- Clients go on with what was not evicted before the error arose.
theorem aftermath_of_logged (settings : Settings) (older later : Log) (w v : Worker) (host : Host) (address : Nat)
    (failure : Failure) (logged : Logged settings (later ++ (w, .fault host address) :: older) v) (faults : w.Faults address)
    (ends : (w.fault host address).station = .refusing (.error failure)) (own : failure.OfFill) :
    ∃ q, (resolve host (address / Page.size * Page.size)).run w.pager = .error (.failed failure) q ∧
      v.ending? = some (.error failure) ∧
      (∃ taken, w.pager.queue.toList = taken ++ q.queue.toList ∧ ∀ r ∈ taken, 0 < r.len → ¬ q.Resident r.owner r.chunk) ∧
      (∃ o ∈ w.pager.objects, ∃ k, k < o.shape.bodyReserved ∧
        address / Page.size * Page.size = o.mapping.base + (o.shape.headerPadded + k) ∧
        ¬ q.Resident o.id (k / o.shape.chunkLen)) ∧
      w.read host address 1 = (#[0], (w.fault host address).settle host) ∧
      (∀ b, (w.write host address [b]).read host address 1 = (#[b], w.write host address [b])) ∧
      Aftermath w q later v := by
  obtain ⟨before, serving⟩ := logged_split settings older w (.fault host address) later v logged
  have ledger := (keeps_of_logged settings older w before serving).ledger
  have storeless := storeless_of_logged settings older w before serving
  have ended : ¬ (w.fault host address).Serving := by simp only [Serving, ends, not_false_eq_true]
  obtain ⟨q, run, fails, x, xMember, j, body, place, roomy, broken⟩ :=
    fault_failed settings older w before host address failure own faults ends
  obtain ⟨-, ending, pager⟩ := pager_after settings older w (.fault host address) later v ended logged
  have left := fun o member k inside => left_of_broken w.pager q roomy o k ledger member inside x _ storeless broken
  have requests := requests_after settings older later w v host address logged ended
  rw [act, fails] at ending pager
  rw [fails] at requests
  have bare : Bare (q.objects.map Managed.mapping) later v := ⟨by rw [pager]; rfl, by rw [pager]; rfl, by rw [pager]; rfl⟩
  have completes : w.read host address 1 = (#[0], (w.fault host address).settle host) ∧
      ∀ b, (w.write host address [b]).read host address 1 = (#[b], w.write host address [b]) := by
    obtain ⟨m, found, missing, -⟩ := faults
    obtain ⟨o, member, holds, rfl⟩ := (mapping_at_iff w address m ledger).mp found
    have behind : o.mapping.base ≤ address := holds.1
    obtain ⟨k, rfl⟩ := Nat.exists_eq_add_of_le behind
    rw [Nat.add_sub_cancel_left] at missing
    have inside : k < o.shape.size := (ledger.sound o member).len ▸ Nat.lt_of_add_lt_add_left holds.2
    have completes := touch_completes w q failure host o k ledger member inside missing fails (left o member)
    exact ⟨(completes 0).1, fun b => (completes b).2⟩
  refine ⟨q, run, ending, lost_of_broken w.pager q roomy x _ ledger storeless broken,
    ⟨x, xMember, j, body, place, ?_⟩, completes.1, completes.2, ?_⟩
  · rw [resident_fruitless roomy q x.id broken.left]
    exact broken.absent
  · refine ⟨fun host o member k n inside => ?_, fun host o member k inside b rest => ?_,
      touch_bare _ later v bare, by rw [pager]; exact q.counters.without_objects, by rw [pager]; rfl,
      requests.1, requests.2⟩
    · exact read_bare _ later v bare o.mapping.base o.shape.size (o.survives q) (left o member) host k n inside
    · obtain ⟨m, found, -, -⟩ :=
        found_bare _ later v bare o.mapping.base o.shape.size (o.survives q) (left o member) k inside
      exact ⟨⟨⟨m, found⟩, not_faults_bare _ later v bare _⟩, write_bare _ later v bare host _ b rest⟩

end Worker

end DemandPaging

namespace DemandPaging.Worker

open Pager

attribute [local instance] Platform.small

theorem aftermath_of_fifth_call : ∃ older q, Logged .threePages ((pressed 4, .fault (Host.plain []) 65544) :: older)
      ((pressed 4).fault (Host.plain []) 65544) ∧
    q.live.map Residency.chunk = [0] ∧ Aftermath (pressed 4) q [] ((pressed 4).fault (Host.plain []) 65544) ∧
    (((pressed 4).fault (Host.plain []) 65544).read (Host.plain []) 65536 2).1 = #[1, 7] ∧
    ((pressed 4).read (Host.plain []) 65552 1).1 = #[1] ∧
    (((pressed 4).fault (Host.plain []) 65544).read (Host.plain []) 65552 1).1 = #[0] := by
  obtain ⟨older, logged⟩ := logged_pressed
  have touched := Logged.acted older (pressed 4) (.fault (Host.plain []) 65544) logged
    (by decide +kernel : (pressed 4).Serving)
  have failed : ((pressed 4).fault (Host.plain []) 65544).station = .refusing (.error (.populate 1 2 5)) :=
    Station.refusing_of_failure _ _ (by decide +kernel)
  obtain ⟨q, run, -, -, -, -, -, aftermath⟩ := aftermath_of_logged .threePages older [] (pressed 4) _ (Host.plain []) 65544 _
    touched (by decide +kernel) failed trivial
  have left : ((pressed 4).pager.leftBy (resolve (Host.plain []) (65544 / Page.size * Page.size))).live.map Residency.chunk =
      [0] := by
    decide +kernel
  rw [leftBy, run] at left
  exact ⟨older, q, touched, left, aftermath, by decide +kernel, by decide +kernel, by decide +kernel⟩

end DemandPaging.Worker
