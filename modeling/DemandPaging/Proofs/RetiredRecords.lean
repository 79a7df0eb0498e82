import Mathlib.Algebra.Order.BigOperators.Group.List
import DemandPaging.Proofs.Chronicle
import DemandPaging.Proofs.OldRecords
import DemandPaging.Proofs.PlainMemory
import DemandPaging.Proofs.RoomToSpare

set_option autoImplicit false

namespace DemandPaging

def liveCount (records : List Residency) : Nat := records.countP fun r => 0 < r.len

def retiredCount (records : List Residency) : Nat := records.countP fun r => r.len = 0

section

variable (first second records : List Residency)

theorem live_count_append : liveCount (first ++ second) = liveCount first + liveCount second := List.countP_append

theorem retired_count_append : retiredCount (first ++ second) = retiredCount first + retiredCount second :=
  List.countP_append

theorem live_add_retired : liveCount records + retiredCount records = records.length := by
  have split := records.length_eq_countP_add_countP fun r => decide (0 < r.len)
  rw [split, liveCount, retiredCount, Nat.add_left_cancel_iff]
  apply List.countP_congr
  intro r _
  simp

theorem retired_count_live (positive : ∀ r ∈ records, 0 < r.len) : retiredCount records = 0 := by
  rw [retiredCount, List.countP_eq_zero]
  intro r member
  simpa using Nat.ne_of_gt (positive r member)

theorem live_count_aged (f : Residency → Residency) (ages : ∀ r : Residency, r.Aged (f r)) :
    liveCount (records.map f) ≤ liveCount records := by
  rw [liveCount, liveCount, List.countP_map]
  apply List.countP_mono_left
  intro r _ positive
  rcases ages r with same | retired
  · simpa [same] using positive
  · simp [retired] at positive

end

variable [Platform]

namespace Deed

def retires : Deed → Bool
  | .served (.free _) => true
  | .served (.reset _) => true
  | _ => false

-- A fault for which there is no room below the high mark, so that a pass of evictions comes first.
def evicts : Deed → Bool
  | .faulted _ p address => (p.wanted? address).any fun incoming => p.settings.high < p.resident + incoming
  | .served _ => false

theorem not_evicts_of_retires (d : Deed) (retires : d.retires = true) : d.evicts = false := by
  cases d with
  | served request => rfl
  | faulted host p address => cases retires

end Deed

-- The latest deeds, newest first, back to the one that was the `passes`-th last to evict; all of them if fewer did.
def recent : Nat → List Deed → List Deed
  | 0, _ => []
  | _, [] => []
  | passes + 1, d :: older => d :: recent (if d.evicts then passes else passes + 1) older

def retirals (passes : Nat) (past : List Deed) : Nat := (recent passes past).countP Deed.retires

section

variable (past : List Deed) (d : Deed) (passes : Nat)

theorem retirals_zero : retirals 0 past = 0 := by
  rw [retirals, recent, List.countP_nil]

theorem retirals_cons : retirals (passes + 1) (d :: past) =
    retirals (if d.evicts then passes else passes + 1) past + (if d.retires then 1 else 0) := by
  rw [retirals, recent, List.countP_cons, retirals]

theorem retirals_mono (a b : Nat) (le : a ≤ b) : retirals a past ≤ retirals b past := by
  induction past generalizing a b with
  | nil => cases a <;> cases b <;> exact Nat.le_refl 0
  | cons d older ih =>
      cases a with
      | zero =>
          rw [retirals_zero]
          exact Nat.zero_le _
      | succ a =>
          obtain ⟨b, rfl⟩ := Nat.exists_eq_add_of_le' (Nat.le_trans (Nat.le_add_left 1 a) le)
          rw [retirals_cons, retirals_cons]
          refine Nat.add_le_add_right (ih _ _ ?_) _
          split <;> omega

theorem retirals_kept (calm : d.evicts = false) : retirals passes past ≤ retirals passes (d :: past) := by
  cases passes with
  | zero => rw [retirals_zero, retirals_zero]
  | succ passes =>
      rw [retirals_cons, calm, if_neg Bool.false_ne_true]
      exact Nat.le_add_right _ _

theorem retirals_evicting (evicts : d.evicts = true) : retirals (passes - 1) past ≤ retirals passes (d :: past) := by
  cases passes with
  | zero => rw [retirals_zero, retirals_zero]
  | succ passes =>
      rw [retirals_cons, if_pos evicts]
      exact Nat.le_add_right _ _

theorem retirals_retiring (retires : d.retires = true) (some : 0 < passes) :
    retirals passes (d :: past) = retirals passes past + 1 := by
  obtain ⟨passes, rfl⟩ := Nat.exists_eq_add_of_le' some
  rw [retirals_cons, d.not_evicts_of_retires retires, if_neg Bool.false_ne_true, if_pos retires]

end

-- Each retired record has a free or a reset that it comes from, with no more than `most` records for each of them. Behind
-- `n` live records they come from what was done since the last `most - n` passes.
def Explained (most : Nat) (past : List Deed) (records : List Residency) : Prop :=
  ∀ older newer, records = older ++ newer → retiredCount newer ≤ most * retirals (most - liveCount older) past

section

variable (most : Nat) (past : List Deed) (d : Deed) (records : List Residency)

theorem explained_kept (calm : d.evicts = false) (explained : Explained most past records) :
    Explained most (d :: past) records := by
  intro older newer split
  exact Nat.le_trans (explained older newer split) (Nat.mul_le_mul_left _ (retirals_kept past d _ calm))

theorem explained_pushed (pushed : List Residency) (positive : ∀ r ∈ pushed, 0 < r.len)
    (explained : Explained most past records) : Explained most past (records ++ pushed) := by
  intro older newer split
  have own := retired_count_live pushed positive
  rcases List.append_eq_append_iff.mp split with ⟨middle, rfl, last⟩ | ⟨middle, rfl, rfl⟩
  · rw [last, retired_count_append] at own
    omega
  · rw [retired_count_append, own]
    exact explained older middle rfl

theorem explained_passed (taken : List Residency) (evicts : d.evicts = true) (some : 0 < liveCount taken)
    (explained : Explained most past (taken ++ records)) : Explained most (d :: past) records := by
  rintro older newer rfl
  have before := explained (taken ++ older) newer (List.append_assoc _ _ _).symm
  rw [live_count_append] at before
  calc retiredCount newer
      ≤ most * retirals (most - (liveCount taken + liveCount older)) past := before
    _ ≤ most * retirals (most - liveCount older - 1) past := Nat.mul_le_mul_left _ (retirals_mono past _ _ (by omega))
    _ ≤ most * retirals (most - liveCount older) (d :: past) := Nat.mul_le_mul_left _ (retirals_evicting past d _ evicts)

theorem explained_retired (f : Residency → Residency) (ages : ∀ r : Residency, r.Aged (f r)) (retires : d.retires = true)
    (bounded : liveCount records ≤ most) (explained : Explained most past records) :
    Explained most (d :: past) (records.map f) := by
  intro older newer split
  obtain ⟨olderBefore, newerBefore, rfl, rfl, rfl⟩ := List.map_eq_append_iff.mp split
  have fewer := live_count_aged olderBefore f ages
  have length := live_add_retired newerBefore
  have all : retiredCount (newerBefore.map f) ≤ newerBefore.length := by
    rw [← List.length_map f]
    exact List.countP_le_length
  have before := Nat.le_trans (explained olderBefore newerBefore rfl)
    (Nat.mul_le_mul_left most (retirals_mono past _ (most - liveCount (olderBefore.map f)) (by omega)))
  rw [live_count_append] at bounded
  rcases Nat.eq_zero_or_pos (most - liveCount (olderBefore.map f)) with none | some
  · rw [none, retirals_zero] at before ⊢
    omega
  · rw [retirals_retiring past d _ retires some, Nat.mul_add]
    omega

end

namespace Pager

theorem live_count_queue (p : Pager) : liveCount p.queue.toList = p.live.length := List.countP_eq_length_filter

theorem queue_installed (p q : Pager) (o : Managed) (i : Nat) (bytes : Bytes) (inside : i < o.shape.chunks)
    (installed : Installed p o i bytes q) :
    ∃ pushed : List Residency, (∀ r ∈ pushed, 0 < r.len) ∧ q.queue.toList = p.queue.toList ++ pushed := by
  cases installed with
  | fresh queue wf records =>
      refine ⟨_, fun r single => ?_, records⟩
      rw [List.mem_singleton.mp single]
      exact o.shape.piece_fill_pos i inside
  | present queue wf records => exact ⟨[], by simp, by rw [List.append_nil, ← records]⟩

section

variable (p : Pager) (ledger : Ledger p)

include ledger

theorem live_count_le : liveCount p.queue.toList ≤ p.settings.high / Page.size := by
  have pages : ∀ n ∈ p.live.map Residency.len, Page.size ≤ n := by
    intro n member
    obtain ⟨r, isLive, rfl⟩ := List.mem_map.mp member
    obtain ⟨o, -, of⟩ := ledger.owned r isLive
    exact Nat.le_of_dvd (r.of_len_pos o of) (of.len ▸ o.shape.piece_fill_whole r.chunk)
  have sum := List.card_nsmul_le_sum _ _ pages
  rw [List.length_map, sum_live, ledger.total, nsmul_eq_mul, Nat.cast_id] at sum
  rw [live_count_queue, Nat.le_div_iff_mul_le Page.size_pos]
  exact Nat.le_trans sum (Nat.le_trans ledger.peak.1 ledger.peak.2)

theorem live_taken (q : Pager) (turns : Turns p q) (less : q.resident < p.resident) :
    ∃ taken, p.queue.toList = taken ++ q.queue.toList ∧ 0 < liveCount taken := by
  have dropped := queue_turns p q ledger turns
  have after := ledger_turns p q ledger turns
  have split : p.queue.toList = p.queue.toList.take (p.queue.len - q.queue.len) ++ q.queue.toList := by
    rw [dropped, List.take_append_drop]
  generalize p.queue.toList.take (p.queue.len - q.queue.len) = taken at split
  refine ⟨taken, split, Nat.pos_of_ne_zero fun none => ?_⟩
  have empty : (taken.map Residency.len).sum = 0 := by
    refine List.sum_eq_zero fun n member => ?_
    obtain ⟨r, rMember, rfl⟩ := List.mem_map.mp member
    simpa using List.countP_eq_zero.mp none r rMember
  have total := ledger.total
  rw [queued_bytes_eq, split, List.map_append, List.sum_append, empty, Nat.zero_add, ← queued_bytes_eq, after.total] at total
  omega

theorem queue_room (q : Pager) (incoming : Nat) (made : MadeRoom p incoming q) :
    (¬ p.settings.high < p.resident + incoming ∧ q.queue = p.queue) ∨
      (p.settings.high < p.resident + incoming ∧ ∃ taken, p.queue.toList = taken ++ q.queue.toList ∧ 0 < liveCount taken) := by
  cases made with
  | enough room => exact Or.inl ⟨Nat.not_lt.mpr room, rfl⟩
  | passed q above pass room =>
      have marks := ledger.marks
      exact Or.inr ⟨above, live_taken p ledger q (turns_of_pass p q incoming pass) (by omega)⟩

theorem queue_answered (host : Host) (q : Pager) (address : Nat) (resolved : Resolved p address q) : ∃ pushed : List Residency,
    (∀ r ∈ pushed, 0 < r.len) ∧
    (((Deed.faulted host p address).evicts = false ∧ q.queue.toList = p.queue.toList ++ pushed) ∨
      ((Deed.faulted host p address).evicts = true ∧ ∃ taken rest, p.queue.toList = taken ++ rest ∧ 0 < liveCount taken ∧
        q.queue.toList = rest ++ pushed)) := by
  cases resolved with
  | header o member low header =>
      refine ⟨[], by simp, Or.inl ⟨?_, (List.append_nil _).symm⟩⟩
      simp only [Deed.evicts, wanted_header p address ledger o member low header, Option.any_none]
  | body o now k calls bytes roomy supplied q member place inside room becomes nowMember sourced there installed =>
      have evicts : (Deed.faulted host p address).evicts =
          decide (p.settings.high < p.resident + (o.shape.piece (k / o.shape.chunkLen)).fillLen) := by
        simp only [Deed.evicts, wanted_body p address ledger o k member inside place, Option.any_some]
      have noticed := ledger_noticed p ledger
      obtain ⟨-, -, same⟩ := ledgers_of_room p now _ _ bytes roomy supplied ledger room nowMember sourced
      obtain ⟨pushed, positive, queue⟩ := queue_installed supplied q _ _ bytes
        (o.becomes_shape now becomes ▸ o.shape.chunk_of_offset_lt k inside) installed
      refine ⟨pushed, positive, ?_⟩
      rw [queue, same, evicts]
      rcases queue_room p.noticed noticed roomy _ room with ⟨enough, kept⟩ | ⟨above, taken, split, some⟩
      · exact Or.inl ⟨decide_eq_false enough, by rw [kept]; rfl⟩
      · exact Or.inr ⟨decide_eq_true above, taken, _, split, some, rfl⟩

theorem explained_resolved (host : Host) (most : Nat) (past : List Deed) (q : Pager) (address : Nat)
    (resolved : Resolved p address q) (explained : Explained most past p.queue.toList) :
    Explained most (.faulted host p address :: past) q.queue.toList := by
  obtain ⟨pushed, positive, ⟨calm, queue⟩ | ⟨evicts, taken, rest, split, some, queue⟩⟩ :=
    queue_answered p ledger host q address resolved
  · rw [queue]
    exact explained_pushed _ _ _ pushed positive (explained_kept most past _ _ calm explained)
  · rw [queue]
    exact explained_pushed _ _ _ pushed positive (explained_passed most past _ rest taken evicts some (split ▸ explained))

theorem explained_served (host : Host) (most : Nat) (past : List Deed) (q : Pager) (request : Request) (reply : Reply)
    (bounded : liveCount p.queue.toList ≤ most) (serves : Served host p request reply q)
    (explained : Explained most past p.queue.toList) : Explained most (.served request :: past) q.queue.toList := by
  obtain ⟨f, ages, queue⟩ := queue_served p q host request reply ledger serves
  cases serves with
  | allocated id template grant q allocated =>
      cases allocated
      exact explained_kept most past _ _ rfl explained
  | freed o index member sound removed =>
      rw [queue]
      exact explained_retired most past _ _ f ages rfl bounded explained
  | emptied o member =>
      rw [queue]
      exact explained_retired most past _ _ f ages rfl bounded explained
  | refused request failure => exact explained_kept most past _ _ rfl explained

end

theorem queue_start (settings : Settings) (p : Pager) (started : start settings = .ok p) : p.queue.toList = [] := by
  simp only [start, Word.bind_eq_ok] at started
  obtain ⟨_, _, queue, made, _, _, staging, _, same⟩ := started
  obtain ⟨-, rfl⟩ := (CircularQueue.try_new_eq_ok _ _ _).mp (Halt.of_word_eq_ok.mp made)
  cases same
  exact CircularQueue.to_list_with_capacity _

end Pager

namespace Worker

open Pager

-- The reachable workers, each with a record of the requests that it took and the faults that came, newest first.
inductive Recorded (settings : Settings) : List Deed → Worker → Prop where
  | started (w : Worker) (start : Worker.start settings = .ok w) : Recorded settings [] w
  | sent (past : List Deed) (w : Worker) (request : Request) (before : Recorded settings past w) :
      Recorded settings past (w.send request).2
  | advanced (host : Host) (releases : host.Releases) (past : List Deed) (w : Worker) (before : Recorded settings past w)
      (fresh : ∀ ticket id template mailbox, w.mailbox.next = some (ticket, .allocate id template, mailbox) →
        ∀ o ∈ w.pager.objects, o.id ≠ id) :
      Recorded settings ((w.taking?.map Deed.served).toList ++ past) (w.advance host)
  | faulted (host : Host) (past : List Deed) (w : Worker) (address : Nat) (before : Recorded settings past w) :
      Recorded settings (.faulted host w.pager (address / Page.size * Page.size) :: past) (w.fault host address)
  | stored (past : List Deed) (w : Worker) (address : Nat) (m : Mapping) (b : UInt8) (before : Recorded settings past w)
      (found : w.mappingAt? address = some m) (present : m.isPresent (address - m.base) = true) :
      Recorded settings past (w.modifyMapping address fun m => { m with bytes := m.bytes.setByte (address - m.base) b })

theorem recorded_of_reachable (settings : Settings) (w : Worker) (reachable : Reachable settings w) :
    ∃ past, Recorded settings past w := by
  induction reachable with
  | started w start => exact ⟨_, .started w start⟩
  | sent w request before ih =>
      obtain ⟨past, recorded⟩ := ih
      exact ⟨_, .sent past w request recorded⟩
  | advanced host releases w before fresh ih =>
      obtain ⟨past, recorded⟩ := ih
      exact ⟨_, .advanced host releases past w recorded fresh⟩
  | faulted host w address before ih =>
      obtain ⟨past, recorded⟩ := ih
      exact ⟨_, .faulted host past w address recorded⟩
  | stored w address m b before found present ih =>
      obtain ⟨past, recorded⟩ := ih
      exact ⟨_, .stored past w address m b recorded found present⟩

theorem reachable_of_recorded (settings : Settings) (past : List Deed) (w : Worker) (recorded : Recorded settings past w) :
    Reachable settings w := by
  induction recorded with
  | started w start => exact .started w start
  | sent past w request before ih => exact .sent w request ih
  | advanced host releases past w before fresh ih => exact .advanced host releases w ih fresh
  | faulted host past w address before ih => exact .faulted host w address ih
  | stored past w address m b before found present ih => exact .stored w address m b ih found present

theorem explained_advanced (host : Host) (releases : host.Releases) (most : Nat) (past : List Deed) (w : Worker)
    (ledger : Ledger w.pager)
    (bounded : liveCount w.pager.queue.toList ≤ most) (explained : Explained most past w.pager.queue.toList)
    (serving : (w.advance host).Serving) :
    Explained most ((w.taking?.map Deed.served).toList ++ past) (w.advance host).pager.queue.toList := by
  obtain ⟨pager, mailbox, station, interrupts⟩ := w
  cases station with
  | waiting =>
      simp only [advance, taking?, Option.map_none, Option.toList_none, List.nil_append] at serving ⊢
      by_cases rung : mailbox.bell.isRung = true
      · rw [if_pos rung]
        exact explained
      · rw [if_neg rung] at serving ⊢
        obtain ⟨count, same⟩ := idle_serving _ _ serving
        rw [same]
        exact explained
  | woken => exact explained
  | serving =>
      cases taken : mailbox.next with
      | none =>
          simp only [advance, taking?, taken, Option.map_none, Option.toList_none, List.nil_append]
          exact explained
      | some front =>
          obtain ⟨ticket, request, rest⟩ := front
          simp only [advance, taking?, taken, Option.map_some, Option.toList_some, List.singleton_append] at serving ⊢
          obtain ⟨reply, q, served, same⟩ :=
            serve_served host releases ⟨pager, rest, .serving, interrupts⟩ ticket request ledger serving
          rw [same]
          exact explained_served pager ledger host most past q request reply bounded served explained
  | _ => exact absurd serving (advance_ended host _ id)

theorem explained_of_recorded (settings : Settings) (past : List Deed) (w : Worker) (recorded : Recorded settings past w)
    (serving : w.Serving) : Explained (settings.high / Page.size) past w.pager.queue.toList := by
  induction recorded with
  | started w start =>
      obtain ⟨p, started, rfl⟩ := start_eq settings w start
      rw [queue_start settings p started]
      rintro older newer split
      rw [(List.append_eq_nil_iff.mp split.symm).2]
      exact Nat.zero_le _
  | sent past w request before ih => exact ih serving
  | advanced host releases past w before fresh ih =>
      have earlier : w.Serving := by_contra fun ended => advance_ended host w ended serving
      have keeps := keeps_of_reachable settings w (reachable_of_recorded settings past w before) earlier
      have bounded := live_count_le w.pager keeps.ledger
      rw [keeps.settings] at bounded
      exact explained_advanced host releases _ past w keeps.ledger bounded (ih earlier) serving
  | faulted host past w address before ih =>
      have earlier := fault_serving host w address serving
      have ledger := (keeps_of_reachable settings w (reachable_of_recorded settings past w before) earlier).ledger
      obtain ⟨q, run, -, resolved⟩ := resolved_of_serving host w address ledger serving
      rw [fault_answered host w address q run]
      exact explained_resolved w.pager ledger host _ past q _ resolved (ih earlier)
  | stored past w address m b before found present ih => exact ih serving

theorem next_sent (m : Mailbox) (request : Request) (isOpen : m.isOpen = true) (nothing : m.queue = []) :
    ∃ rest, (m.send request).2.next = some (m.tickets.size, request, rest) ∧ rest.queue = [] ∧ rest.isOpen = true := by
  simp only [Mailbox.send, isOpen, if_true, Mailbox.enqueue, Mailbox.ring, nothing, List.nil_append, Mailbox.next,
    Array.getElem?_push_size, Option.map_some]
  exact ⟨_, rfl, rfl, rfl⟩

theorem advance_reset (host : Host) (releases : host.Releases) (w : Worker) (o : Managed) (ledger : Ledger w.pager)
    (member : o ∈ w.pager.objects) (station : w.station = .serving) (nothing : w.mailbox.queue = [])
    (isOpen : w.mailbox.isOpen = true) :
    ∃ mailbox : Mailbox, (w.send (.reset o.id)).2.advance host = { w with pager := w.pager.emptied o, mailbox } ∧
      mailbox.queue = [] ∧ mailbox.isOpen = true := by
  obtain ⟨rest, next, empty, stays⟩ := next_sent w.mailbox (.reset o.id) isOpen nothing
  have ran : (reset host o.id >>= fun _ => pure Reply.done : M Reply).run w.pager = .ok .done (w.pager.emptied o) := by
    rw [EStateM.run_bind, reset_run w.pager host releases o ledger member]
    rfl
  refine ⟨rest.answer w.mailbox.tickets.size .done, ?_, empty, stays⟩
  simp only [advance, send, station, next, serve, ran, conclude]

-- All records are bounded by the high mark and the frees and resets since the last passes of evictions, as many passes as
-- there can be live records.
theorem records_within_retirals (settings : Settings) :
    (∀ w, Reachable settings w → ∃ past, Recorded settings past w) ∧
    ∀ past w, Recorded settings past w → w.Serving →
      w.pager.live.length ≤ settings.high / Page.size ∧
      w.pager.queue.toList.length ≤
        settings.high / Page.size * (1 + retirals (settings.high / Page.size) past) := by
  refine ⟨recorded_of_reachable settings, fun past w recorded serving => ?_⟩
  have keeps := keeps_of_reachable settings w (reachable_of_recorded settings past w recorded) serving
  have live := live_count_le w.pager keeps.ledger
  have retired := explained_of_recorded settings past w recorded serving [] _ rfl
  rw [keeps.settings] at live
  refine ⟨live_count_queue w.pager ▸ live, ?_⟩
  rw [← live_add_retired, Nat.mul_add, Nat.mul_one]
  exact Nat.add_le_add live retired

end Worker

end DemandPaging

namespace DemandPaging.Worker

open Pager

-- A worker with its one page gone. It has `n` records at least, all of them retired, and nothing to serve.
structure Spent (w : Worker) (n : Nat) : Prop where
  reachable : Reachable .twoPages w
  lone : w.pager.Lone
  station : w.station = .serving
  nothing : w.mailbox.queue = []
  isOpen : w.mailbox.isOpen = true
  retired : w.pager.live = []
  many : n ≤ w.pager.queue.toList.length

theorem spent_again (w : Worker) (n : Nat) (spent : Spent w n) : ∃ v, Spent v (n + 1) := by
  have serving : w.Serving := by simp only [Serving, spent.station]
  obtain ⟨p, touched, lone, filled⟩ := lone_touched w serving spent.lone
  obtain ⟨o, alone, template, entry⟩ := lone.alone
  have member : o ∈ p.objects := alone ▸ List.mem_singleton_self o
  have absent : ¬ w.pager.Resident ⟨1⟩ 0 := by
    rintro ⟨r, isLive, -⟩
    rw [spent.retired] at isLive
    cases isLive
  obtain ⟨-, r, pushed⟩ := filled.comes absent
  have releases := (Host.plain_yields []).releases
  obtain ⟨mailbox, served, nothing, isOpen⟩ := advance_reset (Host.plain []) releases
    { w with pager := p, interrupts := 0 } o lone.ledger member spent.station spent.nothing spent.isOpen
  have faulted := Reachable.faulted (Host.plain []) w Host.lowest spent.reachable
  rw [touched] at faulted
  have reset := Reachable.advanced (Host.plain []) releases _ (.sent _ (.reset o.id) faulted) (by
    intro ticket id template rest next
    obtain ⟨_, own, -⟩ := next_sent w.mailbox (.reset o.id) spent.isOpen spent.nothing
    cases own.symm.trans next)
  rw [served] at reset
  have live : (p.emptied o).live = p.live.filter fun r => r.owner ≠ o.id := live_retiring p o.id lone.ledger.queue
  have list : (p.emptied o).queue.toList = p.queue.toList.map (Residency.retired o.id) :=
    CircularQueue.to_list_map _ _ lone.ledger.queue
  refine ⟨_, reset, lone_emptied p lone o alone, spent.station, nothing, isOpen, ?_, ?_⟩
  · rw [live, List.filter_eq_nil_iff]
    intro r isLive
    have owner : r.owner = ⟨1⟩ := congrArg Prod.fst (lone_of_live p lone r isLive).1
    rw [owner, show o.id = ⟨1⟩ from congrArg Entry.owner entry]
    decide
  · rw [list, List.length_map, pushed, List.length_append]
    exact Nat.add_le_add spent.many (Nat.le_refl 1)

theorem spent_all (n : Nat) : ∃ w, Spent w n := by
  induction n with
  | zero =>
      exact ⟨allotted, reachable_allotted, lone_allotted, by with_unfolding_all rfl, by with_unfolding_all rfl, by decide +kernel,
        by with_unfolding_all rfl, Nat.zero_le _⟩
  | succ n ih =>
      obtain ⟨w, spent⟩ := ih
      exact spent_again w n spent

theorem records_of_three_resets : ∃ past w, Recorded .twoPages past w ∧ w.Serving ∧ 3 ≤ w.pager.queue.toList.length ∧
    w.pager.queue.toList.length ≤ 2 * (1 + retirals 2 past) := by
  obtain ⟨w, spent⟩ := spent_all 3
  have serving : w.Serving := by simp only [Serving, spent.station]
  obtain ⟨recorded, within⟩ := records_within_retirals .twoPages
  obtain ⟨past, run⟩ := recorded w spent.reachable
  exact ⟨past, w, run, serving, spent.many, (within past w run serving).2⟩

-- The live records are bounded, but all of them are not: touching and resetting one page over and over adds one each time.
theorem records_without_bound : ¬ ∀ settings : Settings, settings.validate = .ok () →
    ∃ bound, ∀ w, Reachable settings w → w.Serving → w.pager.queue.toList.length ≤ bound := by
  intro bounded
  obtain ⟨bound, within⟩ := bounded .twoPages rfl
  obtain ⟨w, spent⟩ := spent_all (bound + 1)
  have most := within w spent.reachable (by simp only [Serving, spent.station])
  exact absurd (Nat.le_trans spent.many most) (Nat.not_succ_le_self bound)

end DemandPaging.Worker
