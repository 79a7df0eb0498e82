import DemandPaging.Proofs.Retiring
import DemandPaging.Proofs.TwoRuns

set_option autoImplicit false

namespace DemandPaging

-- The same record at another time: it may have been retired.
def Residency.Aged (r later : Residency) : Prop := later = r ∨ later = { r with len := 0 }

theorem Residency.aged_trans (r s t : Residency) (first : r.Aged s) (second : s.Aged t) : r.Aged t := by
  rcases first with rfl | rfl
  · exact second
  · rcases second with rfl | rfl <;> exact Or.inr rfl

variable [Platform]

namespace Pager

-- The second pager has another object of the same number in the place of `x`, and is the first one for the rest.
structure Beside (queue : CircularQueue Residency) (x later : Managed) (p q : Pager) : Prop where
  there : x ∈ p.objects
  only : ∀ a ∈ p.objects, a.id = x.id → a = x
  same : q = { p with objects := revised p.objects later }
  queue : p.queue = queue

section

variable (queue : CircularQueue Residency) (x later : Managed) (p q : Pager) (number : later.id = x.id)

theorem find_revised_other (objects : List Managed) (id : ObjectId) (other : id ≠ later.id) :
    (revised objects later).find? (fun o => o.id = id) = objects.find? fun o => o.id = id := by
  induction objects with
  | nil => rfl
  | cons o rest ih =>
      rw [revised] at ih
      rw [revised, List.map_cons, List.find?_cons, List.find?_cons, ih]
      by_cases hit : o.id = later.id
      · rw [if_pos hit, hit, decide_eq_false (Ne.symm other)]
      · rw [if_neg hit]

include number

theorem object_beside (beside : Beside queue x later p q) (id : ObjectId) (other : id ≠ x.id) :
    q.object? id = p.object? id := by
  rw [beside.same, object?, object?]
  exact find_revised_other later p.objects id (number ▸ other)

theorem modify_beside (beside : Beside queue x later p q) (id : ObjectId) (f : Managed → Managed) (other : id ≠ x.id)
    (keeps : ∀ o, (f o).id = o.id) : Beside queue x later (p.modifyObject id f) (q.modifyObject id f) := by
  refine ⟨?_, ?_, ?_, beside.queue⟩
  · exact List.mem_map.mpr ⟨x, beside.there, if_neg (Ne.symm other)⟩
  · intro a member same
    obtain ⟨b, bMember, rfl⟩ := List.mem_map.mp member
    by_cases hit : b.id = id
    · rw [if_pos hit, keeps] at same
      exact absurd (hit.symm.trans same) other
    · rw [if_neg hit] at same ⊢
      exact beside.only b bMember same
  · rw [beside.same]
    simp only [modifyObject, revised, List.map_map]
    congr 1
    apply List.map_congr_left
    intro a _
    simp only [Function.comp]
    by_cases hit : a.id = later.id
    · have apart : ¬ later.id = id := number ▸ Ne.symm other
      have aside : ¬ a.id = id := hit.symm ▸ apart
      rw [if_pos hit, if_neg apart, if_neg aside, if_pos hit]
    · rw [if_neg hit]
      by_cases own : a.id = id
      · rw [if_pos own, if_neg (by rw [keeps]; exact hit)]
      · rw [if_neg own, if_neg hit]

omit number

theorem modify_rest_beside (beside : Beside queue x later p q) (f : Pager → Pager)
    (objects : ∀ p : Pager, (f p).objects = p.objects) (records : ∀ p : Pager, (f p).queue = p.queue)
    (apart : ∀ (p : Pager) (objects : List Managed), f { p with objects } = { f p with objects }) :
    Beside queue x later (f p) (f q) where
  there := (objects p).symm ▸ beside.there
  only := (objects p).symm ▸ beside.only
  same := by rw [beside.same, apart, objects]
  queue := (records p).trans beside.queue

end

section

variable (queue : CircularQueue Residency) (x later : Managed) (number : later.id = x.id)

theorem besides_modify (f : Pager → Pager) (objects : ∀ p : Pager, (f p).objects = p.objects)
    (records : ∀ p : Pager, (f p).queue = p.queue)
    (apart : ∀ (p : Pager) (objects : List Managed), f { p with objects } = { f p with objects }) :
    Agrees (Beside queue x later) (modify f : M Unit) :=
  agrees_modify _ f fun p q beside => modify_rest_beside queue x later p q beside f objects records apart

theorem besides_count (f : Counters → Counters) : Agrees (Beside queue x later) (count f) :=
  besides_modify queue x later _ (fun _ => rfl) (fun _ => rfl) fun _ _ => rfl

theorem besides_record (event : Event) : Agrees (Beside queue x later) (record event) :=
  besides_modify queue x later _ (fun _ => rfl) (fun _ => rfl) fun _ _ => rfl

theorem besides_set_resident (n : Nat) : Agrees (Beside queue x later) (setResident n) :=
  besides_modify queue x later _ (fun _ => rfl) (fun _ => rfl) fun _ _ => rfl

theorem besides_give_back (len : Nat) : Agrees (Beside queue x later) (giveBack len) := by
  intro p q beside
  have resident : q.resident = p.resident := by rw [beside.same]
  rw [giveBack]
  apply pairs_get
  rw [resident]
  apply pairs_ite
  · intro _
    exact pairs_set _ _ _ _ _ _ ⟨beside.there, beside.only, by rw [beside.same], beside.queue⟩
  · exact fun _ => pairs_breach _ _ _ _ _ beside

include number

theorem besides_modify_object (id : ObjectId) (f : Managed → Managed) (other : id ≠ x.id) (keeps : ∀ o, (f o).id = o.id) :
    Agrees (Beside queue x later) (modify (·.modifyObject id f)) :=
  agrees_modify _ _ fun p q beside => modify_beside queue x later p q number beside id f other keeps

theorem besides_save_changed (object : Managed) (swap : SwapStore) (offset : Nat) (r : Residency) (other : r.owner ≠ x.id) :
    Agrees (Beside queue x later) (saveChanged object swap offset r) := by
  rw [saveChanged]
  refine agrees_bind _ _ _ (agrees_attempt _ _) fun current => ?_
  apply agrees_ite
  · exact agrees_pure _ false
  · refine agrees_bind _ _ _ (agrees_word _ _) fun bodyOffset => ?_
    refine agrees_bind _ _ _ (agrees_attempt _ _) fun stored => ?_
    refine agrees_bind _ _ _ (agrees_attempt _ _) fun marked => ?_
    refine agrees_bind _ _ _ (besides_modify_object queue x later number r.owner _ other fun _ => rfl) fun _ => ?_
    refine agrees_bind _ _ _ (besides_count queue x later _) fun _ => ?_
    exact agrees_pure _ true

theorem besides_reclaim (host : Host) (r : Residency) (other : r.owner ≠ x.id) :
    Agrees (Beside queue x later) (reclaim host r) := by
  have released : ∀ (object : Managed) (saved : Bool), Agrees (Beside queue x later) (do
      let released ← attempt (object.mapping.release host (r.address - object.mapping.base) r.len)
      modify (·.modifyObject r.owner fun o => { o with mapping := released })
      giveBack r.len
      count fun c => { c with reclaims := c.reclaims + 1 }
      setResident (← get).resident
      record (.reclaimed r.owner r.chunk saved)) := by
    intro object saved
    refine agrees_bind _ _ _ (agrees_attempt _ _) fun released => ?_
    refine agrees_bind _ _ _ (besides_modify_object queue x later number r.owner _ other fun _ => rfl) fun _ => ?_
    refine agrees_bind _ _ _ (besides_give_back queue x later r.len) fun _ => ?_
    refine agrees_bind _ _ _ (besides_count queue x later _) fun _ => ?_
    refine agrees_read _ Pager.resident (fun n => do setResident n; record (.reclaimed r.owner r.chunk saved))
      (fun p q beside => by rw [beside.same]) fun n => ?_
    refine agrees_bind _ _ _ (besides_set_resident queue x later n) fun _ => ?_
    exact besides_record queue x later _
  intro p q beside
  rw [reclaim]
  apply pairs_get
  rw [object_beside queue x later p q number beside r.owner other]
  cases p.object? r.owner with
  | none => exact agrees_breach _ _ p q beside
  | some object =>
      refine agrees_check _ _ _ _ (agrees_breach _ _) ?_ p q beside
      cases object.swap with
      | none => exact agrees_bind _ _ _ (agrees_pure _ false) (released object)
      | some swap => exact agrees_bind _ _ _ (besides_save_changed queue x later number object swap _ r other) (released object)

theorem pairs_evict (host : Host) (incoming records : Nat) (p q : Pager) (beside : Beside queue x later p q)
    (wf : queue.WellFormed)
    (others : ∀ r ∈ queue.toList.take records, 0 < r.len → r.owner ≠ x.id) :
    Pairs (evict host incoming records) (evict host incoming records) p q (fun _ p q => ∃ queue, Beside queue x later p q)
      (fun p q => ∃ queue, Beside queue x later p q) := by
  have resident : q.resident = p.resident := by rw [beside.same]
  have settings : q.settings = p.settings := by rw [beside.same]
  induction records generalizing queue p q with
  | zero =>
      rw [evict]
      apply pairs_get
      rw [resident, settings]
      refine pairs_bind _ _ _ _ _ _ _ _ (fun _ => Beside queue x later)
        (pairs_word p q _ _ _ (fun _ _ => beside) ⟨queue, beside⟩) fun total p' q' beside' => ?_
      apply pairs_ite
      · exact fun _ => pairs_fail _ _ _ _ _ ⟨queue, beside'⟩
      · exact fun _ => pairs_pure _ _ _ _ _ ⟨queue, beside'⟩
  | succ records ih =>
      have same : q.queue = p.queue := by rw [beside.same]
      rw [evict]
      apply pairs_get
      rw [resident, settings, same]
      refine pairs_bind _ _ _ _ _ _ _ _ (fun _ => Beside queue x later)
        (pairs_word p q _ _ _ (fun _ _ => beside) ⟨queue, beside⟩) fun total p' q' beside' => ?_
      apply pairs_ite
      · intro above
        cases popped : p.queue.pop with
        | none => exact pairs_fail _ _ _ _ _ ⟨queue, beside'⟩
        | some front =>
            obtain ⟨oldest, rest⟩ := front
            obtain ⟨restWf, front, -⟩ := pop_front p.queue rest oldest (beside.queue.symm ▸ wf) popped
            rw [beside.queue] at front
            rw [front, List.take_succ_cons] at others
            have continues : ∀ p q, Beside rest x later p q →
                Pairs (evict host incoming records) (evict host incoming records) p q
                (fun _ p q => ∃ queue, Beside queue x later p q) (fun p q => ∃ queue, Beside queue x later p q) :=
              fun p q beside => ih rest p q beside restWf (fun r member => others r (List.mem_cons_of_mem _ member))
                (by rw [beside.same]) (by rw [beside.same])
            have out : Beside rest x later { p with queue := rest }
                { q with queue := rest, settings := p.settings, resident := p.resident } :=
              ⟨beside.there, beside.only, by rw [beside.same], rfl⟩
            refine pairs_bind _ _ _ _ _ _ _ _ (fun _ => Beside rest x later)
              (pairs_set _ _ _ _ _ _ out) fun _ p q beside => ?_
            apply pairs_ite
            · intro positive
              have other := others oldest List.mem_cons_self positive
              refine pairs_bind _ _ _ _ _ _ _ _ (fun _ => Beside rest x later) ?_ fun _ => continues
              exact pairs_mono _ _ _ _ _ _ _ _ (besides_reclaim rest x later number host oldest other p q beside)
                (fun _ _ _ => id) fun _ _ beside => ⟨rest, beside⟩
            · exact fun _ => continues p q beside
      · exact fun _ => pairs_pure _ _ _ _ _ ⟨queue, beside'⟩

end

-- With any other object of its number in the place of `x`, the step has the same result and leaves that one where it leaves
-- `x`: it neither reads nor changes `x`.
def Ignores (p : Pager) (x : Managed) (step : M Unit) : Prop :=
  ∀ later, later.id = x.id → Pairs step step p { p with objects := revised p.objects later }
    (fun _ q other => x ∈ q.objects ∧ other = { q with objects := revised q.objects later })
    (fun q other => x ∈ q.objects ∧ other = { q with objects := revised q.objects later })

theorem ignores_evict (p : Pager) (x : Managed) (host : Host) (incoming records : Nat) (ledger : Ledger p)
    (member : x ∈ p.objects)
    (others : ∀ r ∈ p.queue.toList.take records, 0 < r.len → r.owner ≠ x.id) : Ignores p x (evict host incoming records) := by
  intro later number
  have beside : Beside p.queue x later p { p with objects := revised p.objects later } :=
    ⟨member, fun a aMember same => same_of_id p a x ledger.ids aMember member same, rfl, rfl⟩
  apply pairs_mono _ _ _ _ _ _ _ _ (pairs_evict p.queue x later number host incoming records p _ beside ledger.queue others)
  · rintro _ q other ⟨queue, after⟩
    exact ⟨after.there, after.same⟩
  · rintro q other ⟨queue, after⟩
    exact ⟨after.there, after.same⟩

-- How many bytes a fault at the address brings in; none if it brings in nothing.
def wanted? (p : Pager) (address : Nat) : Option Nat := do
  let entry ← p.index.find? address
  let o ← p.object? entry.owner
  let offset := address - entry.base
  if offset < o.shape.headerPadded then
    none
  else
    some (o.shape.piece ((offset - o.shape.headerPadded) / o.shape.chunkLen)).fillLen

def takenOut (host : Host) (p : Pager) (address : Nat) : Nat :=
  match p.wanted? address with
  | none => 0
  | some incoming => p.queue.len - (p.noticed.leftBy (makeRoom host incoming)).queue.len

section

variable (host : Host) (p q : Pager) (address : Nat) (ledger : Ledger p)

include ledger

theorem queue_turns (turns : Turns p q) : q.queue.toList = p.queue.toList.drop (p.queue.len - q.queue.len) := by
  have front : ∃ k, q.queue.toList = p.queue.toList.drop k := by
    induction turns with
    | refl => exact ⟨0, rfl⟩
    | tail before last ih =>
        obtain ⟨k, left⟩ := ih
        have wf := (ledger_turns p _ ledger before).queue
        refine ⟨k + 1, ?_⟩
        rw [← List.drop_drop, ← left]
        cases last with
        | retired oldest queue popped => rw [(pop_front _ queue oldest wf popped).2.1, List.drop_succ_cons, List.drop_zero]
        | evicted oldest queue o later saved popped =>
            rw [(pop_front _ queue oldest wf popped).2.1, List.drop_succ_cons, List.drop_zero]
            rfl
  obtain ⟨k, left⟩ := front
  have lengths := congrArg List.length left
  rw [List.length_drop, CircularQueue.length_to_list, CircularQueue.length_to_list] at lengths
  rw [left]
  rcases Nat.le_total k p.queue.len with inside | outside
  · congr 1
    omega
  · rw [List.drop_eq_nil_of_le, List.drop_eq_nil_of_le]
    · rw [CircularQueue.length_to_list]
      omega
    · rwa [CircularQueue.length_to_list]

theorem wanted_body (o : Managed) (k : Nat) (member : o ∈ p.objects) (inside : k < o.shape.bodyReserved)
    (place : address = o.mapping.base + (o.shape.headerPadded + k)) :
    p.wanted? address = some (o.shape.piece (k / o.shape.chunkLen)).fillLen := by
  have holds := o.holds_of_offset _ (ledger.sound o member) (Nat.add_lt_add_left inside o.shape.headerPadded)
  have found := (find_iff p _ o.entry ledger.toCatalogue).mpr ⟨o, member, rfl, place ▸ holds⟩
  have tracked : p.object? o.entry.owner = some o := (object_some_iff p o o.id ledger.ids).mpr ⟨member, rfl⟩
  have offset : address - o.entry.base = o.shape.headerPadded + k := place ▸ Nat.add_sub_cancel_left _ _
  simp only [wanted?, found, tracked, offset, bind, Option.bind]
  rw [if_neg (Nat.not_lt.mpr (Nat.le_add_right _ _)), Nat.add_sub_cancel_left]

theorem wanted_header (o : Managed) (member : o ∈ p.objects) (low : o.mapping.base ≤ address)
    (header : address - o.mapping.base < o.shape.headerPadded) : p.wanted? address = none := by
  have holds : o.entry.Holds address := by
    have holds := o.holds_of_offset (address - o.mapping.base) (ledger.sound o member)
      (Nat.lt_of_lt_of_le header (Nat.le_add_right _ _))
    rwa [Nat.add_sub_cancel' low] at holds
  have found := (find_iff p _ o.entry ledger.toCatalogue).mpr ⟨o, member, rfl, holds⟩
  have tracked : p.object? o.entry.owner = some o := (object_some_iff p o o.id ledger.ids).mpr ⟨member, rfl⟩
  have offset : address - o.entry.base < o.shape.headerPadded := header
  simp only [wanted?, found, tracked, bind, Option.bind]
  exact if_pos offset

theorem queue_resolved (run : (resolve host address).run p = .ok () q) (resolved : Resolved p address q) :
    ∃ pushed, q.queue.toList = p.queue.toList.drop (p.takenOut host address) ++ pushed := by
  cases resolved with
  | header o member low header =>
      refine ⟨[], ?_⟩
      rw [takenOut, wanted_header p address ledger o member low header, List.append_nil]
      rfl
  | body o now k calls bytes roomy supplied q member place inside =>
      have chunk := o.shape.chunk_of_offset_lt k inside
      have noticed := ledger_noticed p ledger
      have ensures : Ensures (resolve host address) p
          (fun _ q => ∃ pushed, q.queue.toList = p.queue.toList.drop (p.takenOut host address) ++ pushed) (fun _ _ => True) := by
        rw [ensures_resolve_body host p address o k _ _ ledger member inside place, bringIn, ensures_bind]
        apply ensures_mono _ _ _ _ _ _ (ensures_ran _ _ _ _ (make_room_ensures host p.noticed _ noticed))
        · rintro _ roomy ⟨made, ran⟩
          have taken : roomy.queue.toList = p.queue.toList.drop (p.takenOut host address) := by
            rw [takenOut, wanted_body p address ledger o k member inside place]
            simp only [leftBy, ran]
            exact queue_turns p.noticed roomy noticed (turns_of_room p.noticed roomy _ made)
          obtain ⟨roomyLedger, now, nowMember, becomes, layout, room⟩ := roomy_ready p o _ roomy ledger member made
          apply ensures_mono _ _ _ _ _ _ (supply_ensures host o now _ roomy roomyLedger nowMember becomes layout
            (o.becomes_shape now becomes ▸ chunk) room)
          · rintro _ q ⟨-, calls, bytes, supplied, sourced, there, installed⟩
            have same := (ledger_sourced roomy now _ bytes supplied roomyLedger nowMember sourced).2.1
            rw [← taken, ← same]
            cases installed with
            | fresh queue wf records => exact ⟨_, records⟩
            | present queue wf records => exact ⟨[], by rw [List.append_nil, records]⟩
          · exact fun _ _ _ => trivial
        · exact fun _ _ _ => trivial
      exact ensures_result _ _ _ _ _ _ ensures run

end

-- The first `n` records are the last `n` of the earlier pager, and the live ones among them belong to objects of these numbers.
structure Old (before p : Pager) (n : Nat) (ids : Set ObjectId) : Prop where
  few : n ≤ p.queue.toList.length
  aged : List.Forall₂ Residency.Aged (before.queue.toList.drop (before.queue.toList.length - n)) (p.queue.toList.take n)
  owners : ∀ r ∈ p.queue.toList.take n, 0 < r.len → r.owner ∈ ids
  there : ∀ id ∈ ids, ∃ o ∈ p.objects, o.id = id

-- Whatever an eviction takes of the first `n` records, it has no effect on the object, and nothing of the object has an effect
-- on it: the records that are live are about other objects at other addresses.
structure Spared (p : Pager) (n : Nat) (x : Managed) : Prop where
  apart : ∀ r ∈ p.queue.toList.take n, 0 < r.len → r.owner ≠ x.id ∧
    (r.address + r.len ≤ x.mapping.base ∨ x.mapping.base + x.mapping.len ≤ r.address)
  ignored : ∀ host incoming k, k ≤ n → Ignores p x (evict host incoming k)

section

variable (before p q : Pager) (n : Nat) (ids : Set ObjectId)

theorem old_refl (ledger : Ledger p) : Old p p p.queue.len {id | ∃ o ∈ p.objects, o.id = id} := by
  have whole : p.queue.toList.length = p.queue.len := p.queue.length_to_list
  refine ⟨Nat.le_of_eq whole.symm, ?_, fun r member positive => ?_, fun _ there => there⟩
  · rw [whole, Nat.sub_self, List.drop_zero, List.take_of_length_le (Nat.le_of_eq whole)]
    exact List.forall₂_same.mpr fun r _ => Or.inl rfl
  · obtain ⟨o, oMember, of⟩ := ledger.owned r
      (List.mem_filter.mpr ⟨List.mem_of_mem_take member, decide_eq_true positive⟩)
    exact ⟨o, oMember, of.owner.symm⟩

theorem old_same (old : Old before p n ids) (queue : q.queue = p.queue)
    (objects : q.objects.map Managed.id = p.objects.map Managed.id) : Old before q n ids := by
  refine ⟨queue ▸ old.few, queue ▸ old.aged, queue ▸ old.owners, fun id member => ?_⟩
  have known : id ∈ p.objects.map Managed.id := List.mem_map.mpr (old.there id member)
  exact List.mem_map.mp (objects ▸ known)

theorem few_before (old : Old before p n ids) : n ≤ before.queue.toList.length := by
  have lengths := old.aged.length_eq
  rw [List.length_drop, List.length_take, Nat.min_eq_left old.few] at lengths
  omega

theorem old_dropped (k : Nat) (pushed : List Residency) (old : Old before p n ids)
    (queue : q.queue.toList = p.queue.toList.drop k ++ pushed) (lasts : Lasts p q) : Old before q (n - k) ids := by
  have few := old.few
  have front : q.queue.toList.take (n - k) = (p.queue.toList.take n).drop k := by
    rw [queue, List.drop_take, List.take_append_of_le_length]
    rw [List.length_drop]
    omega
  refine ⟨?_, ?_, fun r member => ?_, fun id member => ?_⟩
  · rw [queue, List.length_append, List.length_drop]
    omega
  · have aged := List.forall₂_drop k old.aged
    have least := few_before before p n ids old
    rw [front]
    rw [List.drop_drop] at aged
    by_cases inside : k ≤ n
    · have place : before.queue.toList.length - (n - k) = before.queue.toList.length - n + k := by omega
      rwa [place]
    · have none : n - k = 0 := by omega
      rw [none, Nat.sub_zero, List.drop_length, List.drop_eq_nil_of_le]
      · exact .nil
      · rw [List.length_take]
        omega
  · rw [front] at member
    exact old.owners r (List.mem_of_mem_drop member)
  · obtain ⟨o, oMember, same⟩ := old.there id member
    obtain ⟨later, laterMember, becomes⟩ := lasts.forth o oMember
    exact ⟨later, laterMember, becomes.id.trans same⟩

theorem queue_served (host : Host) (request : Request) (reply : Reply) (ledger : Ledger p)
    (served : Served host p request reply q) :
    ∃ f : Residency → Residency, (∀ r : Residency, r.Aged (f r)) ∧ q.queue.toList = p.queue.toList.map f := by
  have retires : ∀ id, ∃ f : Residency → Residency, (∀ r : Residency, r.Aged (f r)) ∧
      (p.retiring id).queue.toList = p.queue.toList.map f := by
    refine fun id => ⟨Residency.retired id, fun r => ?_, CircularQueue.to_list_map _ _ ledger.queue⟩
    rw [Residency.retired]
    split
    · exact Or.inr rfl
    · exact Or.inl rfl
  cases served with
  | allocated id template grant q allocated =>
      cases allocated
      exact ⟨fun r => r, fun _ => Or.inl rfl, (List.map_id' _).symm⟩
  | freed o => exact retires o.id
  | emptied o => exact retires o.id
  | refused => exact ⟨fun r => r, fun _ => Or.inl rfl, (List.map_id' _).symm⟩

theorem old_served (host : Host) (request : Request) (reply : Reply) (ledger : Ledger p) (after : Ledger q)
    (old : Old before p n ids) (served : Served host p request reply q) :
    Old before q n {id | id ∈ ids ∧ ∃ o ∈ q.objects, o.id = id} := by
  obtain ⟨f, ages, queue⟩ := queue_served p q host request reply ledger served
  have front : q.queue.toList.take n = (p.queue.toList.take n).map f := by rw [queue, List.map_take]
  refine ⟨?_, ?_, fun r member positive => ?_, fun id member => member.2⟩
  · rw [queue, List.length_map]
    exact old.few
  · rw [front, List.forall₂_map_right_iff]
    exact old.aged.imp fun r s aged => Residency.aged_trans r s (f s) aged (ages s)
  · obtain ⟨o, oMember, of⟩ := after.owned r
      (List.mem_filter.mpr ⟨List.mem_of_mem_take member, decide_eq_true positive⟩)
    rw [front] at member
    obtain ⟨s, sMember, rfl⟩ := List.mem_map.mp member
    refine ⟨?_, o, oMember, of.owner.symm⟩
    rcases ages s with same | retired
    · rw [same] at positive ⊢
      exact old.owners s sMember positive
    · rw [retired] at positive
      exact absurd positive (Nat.lt_irrefl 0)

theorem spared_of_old (x : Managed) (ledger : Ledger p) (old : Old before p n ids) (member : x ∈ p.objects)
    (new : x.id ∉ ids) : Spared p n x := by
  have others : ∀ r ∈ p.queue.toList.take n, 0 < r.len → r.owner ≠ x.id := fun r rMember positive same =>
    new (same ▸ old.owners r rMember positive)
  refine ⟨fun r rMember positive => ⟨others r rMember positive, ?_⟩, fun host incoming k few => ?_⟩
  · obtain ⟨o, oMember, of⟩ := ledger.owned r
      (List.mem_filter.mpr ⟨List.mem_of_mem_take rMember, decide_eq_true positive⟩)
    by_contra overlap
    have some := (object_bounds p x ledger.toCatalogue member).1
    have inside : max r.address x.mapping.base ∈ taken r := by
      rw [taken, Finset.mem_Ico]
      omega
    have holds : x.entry.Holds (max r.address x.mapping.base) := by
      refine ⟨Nat.le_max_right _ _, ?_⟩
      show max r.address x.mapping.base < x.mapping.base + x.mapping.len
      omega
    have own := (located_of_taken r o _ (ledger.sound o oMember) of inside).1
    have same := same_of_address p o x _ ledger.toCatalogue oMember member own holds
    exact others r rMember positive (of.owner.trans (congrArg Managed.id same))
  · refine ignores_evict p x host incoming k ledger member fun r rMember => others r ?_
    exact List.take_subset_take_left _ few rMember

end

end Pager

namespace Worker

open Pager

-- What a worker may come to after `u`: the number says how many records of the queue of `u` are still there, and the set
-- which objects of `u` have been there all the time.
inductive Since (u : Worker) : Worker → Nat → Set ObjectId → Prop where
  | started : Since u u u.pager.queue.len {id | ∃ o ∈ u.pager.objects, o.id = id}
  | sent (w : Worker) (n : Nat) (ids : Set ObjectId) (request : Request) (before : Since u w n ids) :
      Since u (w.send request).2 n ids
  | advanced (host : Host) (releases : host.Releases) (w : Worker) (n : Nat) (ids : Set ObjectId) (before : Since u w n ids)
      (fresh : ∀ ticket id template mailbox, w.mailbox.next = some (ticket, .allocate id template, mailbox) →
        ∀ o ∈ w.pager.objects, o.id ≠ id) :
      Since u (w.advance host) n {id | id ∈ ids ∧ ∃ o ∈ (w.advance host).pager.objects, o.id = id}
  | faulted (host : Host) (w : Worker) (n : Nat) (ids : Set ObjectId) (address : Nat) (before : Since u w n ids) :
      Since u (w.fault host address) (n - w.pager.takenOut host (address / Page.size * Page.size)) ids
  | stored (w : Worker) (n : Nat) (ids : Set ObjectId) (address : Nat) (m : Mapping) (b : UInt8) (before : Since u w n ids)
      (found : w.mappingAt? address = some m) (present : m.isPresent (address - m.base) = true) :
      Since u (w.modifyMapping address fun m => { m with bytes := m.bytes.setByte (address - m.base) b }) n ids

theorem old_of_since (settings : Settings) (u w : Worker) (n : Nat) (ids : Set ObjectId) (keeps : Keeps settings u.pager)
    (since : Since u w n ids) (serving : w.Serving) : Keeps settings w.pager ∧ Old u.pager w.pager n ids := by
  induction since with
  | started => exact ⟨keeps, old_refl u.pager keeps.ledger⟩
  | sent w n ids request before ih => exact ih serving
  | advanced host releases w n ids before fresh ih =>
      have after := advance_keeps host releases w settings (fun serving => (ih serving).1) fresh serving
      refine ⟨after, ?_⟩
      obtain ⟨servingBefore, same | ⟨ticket, request, mailbox, reply, taken, served⟩⟩ :=
        advance_served host releases w (fun serving => (ih serving).1.ledger) serving
      · obtain ⟨kept, old⟩ := ih servingBefore
        rw [same]
        refine ⟨old.few, old.aged, fun r member positive => ?_, fun id member => member.2⟩
        have own := old.owners r member positive
        exact ⟨own, old.there r.owner own⟩
      · obtain ⟨kept, old⟩ := ih servingBefore
        exact old_served u.pager w.pager _ n ids host request reply kept.ledger after.ledger old served
  | faulted host w n ids address before ih =>
      obtain ⟨kept, old⟩ := ih (fault_serving host w address serving)
      refine ⟨fault_keeps host w address settings kept serving, ?_⟩
      have ensures := resolve_ensures host w.pager (address / Page.size * Page.size) kept.ledger
      cases run : (resolve host (address / Page.size * Page.size)).run w.pager with
      | ok _ q =>
          have resolved := (ensures_result _ _ _ _ _ _ ensures run).2
          obtain ⟨pushed, queue⟩ := queue_resolved host w.pager q _ kept.ledger run resolved
          rw [fault_answered host w address q run]
          exact old_dropped u.pager w.pager q n ids _ pushed old queue (resolved_lasts w.pager _ q kept.ledger resolved)
      | error halt q => exact absurd serving (fault_ended host w address halt q run)
  | stored w n ids address m b before found present ih =>
      obtain ⟨kept, old⟩ := ih serving
      refine ⟨store_keeps w address m b settings kept found present, old_same u.pager w.pager _ n ids old rfl ?_⟩
      simp only [modifyMapping, List.map_map]
      rfl

theorem since_of_moves (host : Host) (releases : host.Releases) (moves : List Move) (u w : Worker) (n : Nat)
    (ids : Set ObjectId) (since : Since u w n ids) (permitted : w.permitsAll host moves = true) :
    ∃ left stayed, Since u (w.makes host moves) left stayed ∧ stayed ⊆ ids := by
  induction moves generalizing w n ids with
  | nil => exact ⟨n, ids, since, subset_rfl⟩
  | cons move moves ih =>
      rw [permitsAll, Bool.and_eq_true] at permitted
      cases move with
      | send request => exact ih _ n ids (.sent w n ids request since) permitted.2
      | advance =>
          have advanced := Since.advanced host releases w n ids since (fresh_of_permits w permitted.1)
          obtain ⟨left, stayed, later, fewer⟩ := ih _ n _ advanced permitted.2
          exact ⟨left, stayed, later, fun id member => (fewer member).1⟩
      | fault address => exact ih _ _ ids (.faulted host w n ids address since) permitted.2
      | store address b =>
          obtain ⟨m, found, present⟩ := mapping_of_permits w address b permitted.1
          exact ih _ n ids (.stored w n ids address m b since found present) permitted.2

-- However long the worker goes on, and wherever later objects are mapped, the records of a freed object have nothing to do
-- with them.
theorem free_leaves_others (settings : Settings) (w : Worker) (id : ObjectId) (reachable : Reachable settings w)
    (serving : w.Serving) :
    ((∀ o ∈ w.pager.objects, o.id ≠ id) →
      (free id).run w.pager = .error (.failed (.unknownObject id.number)) w.pager) ∧
    ∀ o ∈ w.pager.objects, o.id = id → ∃ q, (free id).run w.pager = .ok () q ∧ Frees w.pager o q ∧
      ∀ u v n ids, u.pager = q → Since u v n ids → v.Serving →
        Old q v.pager n ids ∧ ∀ x ∈ v.pager.objects, x.id ∉ ids → Spared v.pager n x := by
  have keeps := keeps_of_reachable settings w reachable serving
  have ledger := keeps.ledger
  refine ⟨fun unknown => free_unknown_run w.pager id ((object_none_iff w.pager id).mpr unknown), ?_⟩
  · rintro o member rfl
    have ensures := free_ensures w.pager o ledger member
    obtain ⟨_, q, run, index, sound, removed, rfl⟩ := returns_of_ensures w.pager _ _ ensures
    have counted := counted_of_reachable settings w reachable serving
    refine ⟨_, run, frees_of_freed w.pager o index ledger counted member sound removed, ?_⟩
    intro u v n ids rest since vServing
    have freedLedger := ledger_freed w.pager o index ledger member sound removed
    have after : Keeps settings u.pager := rest ▸ ⟨freedLedger, keeps.settings⟩
    obtain ⟨kept, old⟩ := old_of_since settings u v n ids after since vServing
    exact ⟨rest ▸ old, fun x xMember new => spared_of_old u.pager v.pager n ids x kept.ledger old xMember new⟩

end Worker

end DemandPaging

namespace DemandPaging.Worker

open Pager

attribute [local instance] Platform.small

-- The object is freed while three of its chunks are resident. A second object takes its place, and a page of it is touched.
def freed : Worker :=
  { pressed 4 with pager := (pressed 4).pager.leftBy (free ⟨1⟩) }

def replaced : Worker := freed.makes (Host.plain []) [.send (.allocate ⟨2⟩ (.fourPages 4)), .advance, .fault 65544]

theorem freed_and_mapped_again : ∃ o x left stayed, (pressed 4).pager.live.map Residency.owner = [o.id, o.id, o.id] ∧
    Frees (pressed 4).pager o freed.pager ∧ Since freed replaced left stayed ∧ replaced.pager.objects = [x] ∧
    x.entry = ⟨o.mapping.base, o.mapping.len, ⟨2⟩⟩ ∧ Spared replaced.pager left x := by
  obtain ⟨o, alone, entry⟩ := object_pressed
  have number : o.id = ⟨1⟩ := congrArg Entry.owner entry
  obtain ⟨q, run, frees, later⟩ := (free_leaves_others .threePages _ ⟨1⟩ reachable_pressed (by decide +kernel)).2 o
    (alone ▸ List.mem_singleton_self o) number
  have same : freed.pager = q := by rw [freed, leftBy, run]
  have gone : freed.pager.objects = [] := List.map_eq_nil_iff.mp (by decide +kernel : freed.pager.objects.map Managed.id = [])
  obtain ⟨left, stayed, since, fewer⟩ := since_of_moves (Host.plain []) (Host.plain_yields []).releases
    [.send (.allocate ⟨2⟩ (.fourPages 4)), .advance, .fault 65544] freed freed _ _ .started (by decide +kernel)
  obtain ⟨x, relisted, xEntry⟩ : ∃ x, replaced.pager.objects = [x] ∧ x.entry = ⟨65536, 32, ⟨2⟩⟩ :=
    List.map_eq_singleton_iff.mp (by decide +kernel)
  refine ⟨o, x, left, stayed, number ▸ by decide +kernel, same ▸ frees, since, relisted, ?_, ?_⟩
  · rw [xEntry]
    exact congrArg (fun e => (⟨e.base, e.len, ⟨2⟩⟩ : Entry ObjectId)) entry.symm
  · refine (later freed replaced left stayed same since (by decide +kernel)).2 x (relisted ▸ List.mem_singleton_self x) ?_
    intro old
    obtain ⟨y, there, -⟩ := fewer old
    rw [gone] at there
    cases there

end DemandPaging.Worker
