import DemandPaging.Proofs.ChunkRanges
import DemandPaging.Proofs.Views

set_option autoImplicit false

namespace DemandPaging

def Pager.bytes (records : List Residency) : Nat := (records.map Residency.len).sum

theorem Pager.bytes_append (taken : List Residency) (r : Residency) : bytes (taken ++ [r]) = bytes taken + r.len := by
  simp only [bytes, List.map_append, List.sum_append, List.map_cons, List.map_nil, List.sum_cons, List.sum_nil, Nat.add_zero]

variable [Platform]

def Residency.Holds (r : Residency) (o : Managed) (i : Nat) : Prop := 0 < r.len ∧ r.owner = o.id ∧ r.chunk = i

-- The chunk of the record has to be saved before it goes: the object can change, and its bytes are no longer those recorded.
def Residency.Changed (r : Residency) (o : Managed) : Prop :=
  o.template.readOnly = false ∧ Digest.of (o.contents r.chunk) ≠ r.digest

instance (r : Residency) (o : Managed) : Decidable (r.Changed o) := inferInstanceAs (Decidable (_ ∧ _))

namespace Managed

def HasPage (o : Managed) (i page : Nat) : Prop :=
  (o.shape.headerPadded + (o.shape.piece i).bodyOffset) / Page.size ≤ page ∧
    page < (o.shape.headerPadded + (o.shape.piece i).bodyOffset) / Page.size + Page.count (o.shape.piece i).fillLen

instance (o : Managed) (i page : Nat) : Decidable (o.HasPage i page) := inferInstanceAs (Decidable (_ ∧ _))

def Loses (o : Managed) (taken : List Residency) (i : Nat) : Prop := ∃ r ∈ taken, r.Holds o i

def Saves (o : Managed) (taken : List Residency) (i : Nat) : Prop := ∃ r ∈ taken, r.Holds o i ∧ r.Changed o

structure Keeps (o : Managed) (taken : List Residency) (before after : SwapStore) : Prop where
  span : after.map.span = before.map.span
  saved : ∀ i, i < o.shape.chunks → (after.saved i = true ↔ before.saved i = true ∨ o.Saves taken i)
  written : ∀ d, d < o.shape.bodyReserved → o.Saves taken (d / o.shape.chunkLen) →
    after.payload d = o.mapping.bytes.byte (o.shape.headerPadded + d)
  unwritten : ∀ d, d < o.shape.bodyReserved → ¬ o.Saves taken (d / o.shape.chunkLen) → after.payload d = before.payload d

-- The object after these records were taken: the pages of its live ones are gone, no other page and nothing else of it has
-- changed, and what had to be saved is in its store.
structure Relinquished (o : Managed) (taken : List Residency) (later : Managed) : Prop where
  rest : later = { o with mapping := { o.mapping with bytes := later.mapping.bytes }, swap := later.swap }
  released : ∀ i page, o.Loses taken i → o.HasPage i page → later.mapping.bytes.frame? page = none
  untouched : ∀ page, (∀ i, o.Loses taken i → ¬ o.HasPage i page) →
    later.mapping.bytes.frame? page = o.mapping.bytes.frame? page
  stores : later.swap.isSome = o.swap.isSome
  kept : ∀ before after, o.swap = some before → later.swap = some after → o.Keeps taken before after

end Managed

namespace Managed

section

variable (o x later : Managed) (taken : List Residency) (r : Residency)

theorem loses_append (i : Nat) : o.Loses (taken ++ [r]) i ↔ o.Loses taken i ∨ r.Holds o i := by
  simp only [Loses, List.mem_append, List.mem_singleton, or_and_right, exists_or, exists_eq_left]

theorem saves_append (i : Nat) : o.Saves (taken ++ [r]) i ↔ o.Saves taken i ∨ (r.Holds o i ∧ r.Changed o) := by
  simp only [Saves, List.mem_append, List.mem_singleton, or_and_right, exists_or, exists_eq_left]

theorem has_page_iff (i d : Nat) (body : d < o.shape.bodyReserved) :
    o.HasPage i ((o.shape.headerPadded + d) / Page.size) ↔ d / o.shape.chunkLen = i := by
  by_cases inside : i < o.shape.chunks
  · exact o.shape.piece_pages i d inside body
  · have own := o.shape.chunk_of_offset_lt d body
    have nothing : Page.count (o.shape.piece i).fillLen = 0 := by
      rw [(o.shape.piece_empty i (Nat.le_of_not_lt inside)).2.2, Page.count_zero]
    rw [HasPage, nothing]
    omega

theorem relinquished_refl : o.Relinquished [] o where
  rest := rfl
  released := fun i page lost => by
    obtain ⟨r, impossible, -⟩ := lost
    cases impossible
  untouched := fun _ _ => rfl
  stores := rfl
  kept := fun before after store same => by
    cases store.symm.trans same
    have nothing : ∀ i, ¬ o.Saves [] i := fun i saved => by
      obtain ⟨r, impossible, -⟩ := saved
      cases impossible
    exact ⟨rfl, fun i _ => by simp [nothing], fun d _ saved => absurd saved (nothing _), fun _ _ _ => rfl⟩

theorem relinquished_other (relinquished : o.Relinquished taken x) (other : ∀ i, ¬ r.Holds o i) :
    o.Relinquished (taken ++ [r]) x := by
  have loses : ∀ i, o.Loses (taken ++ [r]) i ↔ o.Loses taken i := fun i => by
    rw [loses_append, or_iff_left (other i)]
  have saves : ∀ i, o.Saves (taken ++ [r]) i ↔ o.Saves taken i := fun i => by
    rw [saves_append, or_iff_left fun own => other i own.1]
  exact {
    rest := relinquished.rest
    released := fun i page lost => relinquished.released i page ((loses i).mp lost)
    untouched := fun page kept => relinquished.untouched page fun i lost => kept i ((loses i).mpr lost)
    stores := relinquished.stores
    kept := fun before after store now => by
      have keeps := relinquished.kept before after store now
      exact ⟨keeps.span, fun i inside => by rw [saves, keeps.saved i inside],
        fun d body saved => keeps.written d body ((saves _).mp saved),
        fun d body unsaved => keeps.unwritten d body fun saved => unsaved ((saves _).mpr saved)⟩ }

theorem byte_relinquished (relinquished : o.Relinquished taken x) (d : Nat) (body : d < o.shape.bodyReserved)
    (kept : ¬ o.Loses taken (d / o.shape.chunkLen)) :
    x.mapping.bytes.byte (o.shape.headerPadded + d) = o.mapping.bytes.byte (o.shape.headerPadded + d) := by
  apply SparseBytes.byte_congr
  apply relinquished.untouched
  intro i lost page
  exact kept ((o.has_page_iff i d body).mp page ▸ lost)

theorem template_relinquished (relinquished : o.Relinquished taken x) : x.template = o.template := by
  rw [relinquished.rest]

theorem contents_relinquished (relinquished : o.Relinquished taken x) (i : Nat) (inside : i < o.shape.chunks)
    (kept : ¬ o.Loses taken i) : x.contents i = o.contents i := by
  have shape : x.shape = o.shape := by rw [shape, o.template_relinquished x taken relinquished]
  rw [contents, contents, shape]
  apply SparseBytes.slice_congr
  intro j within
  obtain ⟨body, own⟩ := o.shape.piece_byte i j inside within
  rw [Nat.add_assoc]
  exact o.byte_relinquished x taken relinquished _ body (own.symm ▸ kept)

theorem saved_iff_changed (saved : Bool) (evicted : o.Evicted r saved later) (sound : o.Sound) (of : r.Of o)
    (storeless : o.template.readOnly = true → o.swap = none) : saved = true ↔ r.Changed o := by
  have body : o.shape.bodyLen ≠ 0 := by
    intro nothing
    have begins := o.shape.chunk_begins r.chunk of.chunk
    have reserved : o.shape.bodyReserved = 0 := by
      rw [Shape.bodyReserved, nothing, Page.roundUp_zero]
    omega
  constructor
  · intro isSaved
    obtain ⟨changed, s, marked, store, -⟩ := evicted.stored isSaved
    refine ⟨Bool.eq_false_iff.mpr fun fixed => ?_, changed⟩
    rw [storeless fixed] at store
    cases store
  · rintro ⟨writable, changed⟩
    by_contra unsaved
    obtain ⟨s, store⟩ := Option.isSome_iff_exists.mp (sound.writable writable body)
    exact changed ((evicted.kept (Bool.eq_false_iff.mpr unsaved)).2 s store)

end

section

variable (o x later : Managed) (taken : List Residency) (r : Residency) (saved : Bool)
  (relinquished : o.Relinquished taken x) (evicted : x.Evicted r saved later) (of : r.Of x)
  (kept : ¬ o.Loses taken r.chunk) (honest : saved = true ↔ r.Changed o)

include relinquished evicted of kept honest

theorem keeps_evicted (before after : SwapStore) (store : o.swap = some before) (now : later.swap = some after) :
    o.Keeps (taken ++ [r]) before after := by
  have template := o.template_relinquished x taken relinquished
  have shape : x.shape = o.shape := by rw [shape, template]
  have id : x.id = o.id := by rw [relinquished.rest]
  have chunk : r.chunk < o.shape.chunks := shape ▸ of.chunk
  have holds : ∀ i, r.Holds o i ↔ r.chunk = i := fun i =>
    ⟨fun own => own.2.2, fun own => ⟨r.of_len_pos x of, of.owner.trans id, own⟩⟩
  have apart : ∀ i, o.Saves taken i → i ≠ r.chunk := by
    rintro i ⟨other, member, own, -⟩ rfl
    exact kept ⟨other, member, own⟩
  cases saved with
  | false =>
      have unchanged : ¬ r.Changed o := fun changed => Bool.false_ne_true (honest.mpr changed)
      have saves : ∀ i, o.Saves (taken ++ [r]) i ↔ o.Saves taken i := fun i => by
        rw [saves_append, or_iff_left fun own => unchanged own.2]
      have keeps := relinquished.kept before after store ((evicted.kept rfl).1.symm.trans now)
      exact ⟨keeps.span, fun i inside => by rw [saves, keeps.saved i inside],
        fun d body isSaved => keeps.written d body ((saves _).mp isSaved),
        fun d body unsaved => keeps.unwritten d body fun isSaved => unsaved ((saves _).mpr isSaved)⟩
  | true =>
      obtain ⟨-, s, marked, there, given, takes⟩ := evicted.stored rfl
      cases given.symm.trans now
      have keeps := relinquished.kept before s store there
      have changed := honest.mp rfl
      have saves : ∀ i, o.Saves (taken ++ [r]) i ↔ o.Saves taken i ∨ i = r.chunk := fun i => by
        rw [saves_append, holds, and_iff_left changed, eq_comm]
      have payload : ∀ d, d < o.shape.bodyReserved → after.payload d =
          if d / o.shape.chunkLen = r.chunk then x.mapping.bytes.byte (o.shape.headerPadded + d) else s.payload d := by
        intro d body
        have located := o.shape.piece_of_offset d r.chunk chunk
        rw [takes.payload, x.size_contents, shape]
        by_cases own : d / o.shape.chunkLen = r.chunk
        · have contents := x.contents_get r.chunk d of.chunk (shape ▸ body) (shape ▸ own)
          rw [shape] at contents
          rw [if_pos own, if_pos (located.mpr ⟨body, own⟩), contents]
        · rw [if_neg own, if_neg fun inside => own (located.mp inside).2]
      refine ⟨takes.span.trans keeps.span, fun i inside => ?_, fun d body isSaved => ?_, fun d body unsaved => ?_⟩
      · rw [takes.saved i (shape ▸ inside), Bool.or_eq_true, decide_eq_true_iff, keeps.saved i inside, saves]
        exact or_comm.trans or_assoc
      · rw [payload d body]
        rcases (saves _).mp isSaved with earlier | own
        · rw [if_neg (apart _ earlier)]
          exact keeps.written d body earlier
        · rw [if_pos own]
          exact o.byte_relinquished x taken relinquished d body (own.symm ▸ kept)
      · have neither := not_or.mp fun either => unsaved ((saves _).mpr either)
        rw [payload d body, if_neg neither.2]
        exact keeps.unwritten d body neither.1

theorem relinquished_evicted : o.Relinquished (taken ++ [r]) later := by
  have template := o.template_relinquished x taken relinquished
  have shape : x.shape = o.shape := by rw [shape, template]
  have id : x.id = o.id := by rw [relinquished.rest]
  have own : r.Holds o r.chunk := ⟨r.of_len_pos x of, of.owner.trans id, rfl⟩
  have frames : ∀ page, later.mapping.bytes.frame? page =
      if o.HasPage r.chunk page then none else x.mapping.bytes.frame? page := by
    intro page
    rw [evicted.rest]
    simp only [without, SparseBytes.frame?_drop, shape]
    exact if_congr Iff.rfl rfl rfl
  refine {
    rest := ?_, released := fun i page lost has => ?_, untouched := fun page clear => ?_
    stores := (x.stores_becomes later (x.evicted_becomes later r saved evicted)).trans relinquished.stores
    kept := o.keeps_evicted x later taken r saved relinquished evicted of kept honest }
  · have before := relinquished.rest
    have after := evicted.rest
    generalize x.mapping.bytes = bytes at before
    generalize x.swap = swap at before
    subst before
    generalize later.swap = swap at after
    rw [after]
  · rw [frames]
    rcases (o.loses_append taken r i).mp lost with earlier | now
    · rw [relinquished.released i page earlier has, ite_self]
    · rw [if_pos (now.2.2 ▸ has)]
  · have mine : o.Loses (taken ++ [r]) r.chunk := (o.loses_append taken r _).mpr (Or.inr own)
    rw [frames, if_neg (clear _ mine)]
    exact relinquished.untouched page fun i lost => clear i ((o.loses_append taken r i).mpr (Or.inl lost))

end

end Managed

namespace Pager

def Storeless (p : Pager) : Prop := ∀ o ∈ p.objects, o.template.readOnly = true → o.swap = none

def saves (p : Pager) (r : Residency) : Bool := p.objects.any fun o => o.id = r.owner ∧ r.Changed o

-- What the journal gets, oldest first, when these records are taken: one entry for each live one.
def reclaims (p : Pager) (taken : List Residency) : List Event :=
  (taken.filter fun r => 0 < r.len).map fun r => .reclaimed r.owner r.chunk (p.saves r)

structure Passed (p : Pager) (taken : List Residency) (q : Pager) : Prop where
  rest : q.settings = p.settings ∧ q.index = p.index ∧ q.staging = p.staging ∧ q.watched = p.watched ∧
    q.remains = p.remains
  queue : p.queue.toList = taken ++ q.queue.toList
  resident : q.resident + bytes taken = p.resident
  ids : q.objects.map Managed.id = p.objects.map Managed.id
  objects : ∀ o ∈ p.objects, ∀ later ∈ q.objects, later.id = o.id → o.Relinquished taken later
  counters : q.counters = { p.counters with
    writebacks := p.counters.writebacks + (taken.filter fun r => 0 < r.len).countP p.saves
    reclaims := p.counters.reclaims + (taken.filter fun r => 0 < r.len).length
    residentBytes := q.resident }
  journal : q.journal = (p.reclaims taken).reverse ++ p.journal

section

variable (p m q : Pager) (taken : List Residency)

theorem passed_retired (oldest : Residency) (queue : CircularQueue Residency) (passed : Passed p taken m)
    (front : m.queue.toList = oldest :: queue.toList) (len : oldest.len = 0) :
    Passed p (taken ++ [oldest]) { m with queue } := by
  have live : (taken ++ [oldest]).filter (fun r => 0 < r.len) = taken.filter fun r => 0 < r.len := by
    rw [List.filter_append, List.filter_cons_of_neg (by simp [len]), List.filter_nil, List.append_nil]
  refine ⟨passed.rest, ?_, ?_, passed.ids, fun o member later laterMember same => ?_, ?_, ?_⟩
  · rw [passed.queue, front, List.append_assoc]
    rfl
  · rw [bytes_append, len]
    exact passed.resident
  · exact o.relinquished_other later taken oldest (passed.objects o member later laterMember same)
      fun i own => absurd own.1 (by omega)
  · rw [live]
    exact passed.counters
  · rw [reclaims, live]
    exact passed.journal

variable (ledger : Ledger p)

include ledger

theorem saves_iff (o : Managed) (r : Residency) (member : o ∈ p.objects) (owner : r.owner = o.id) :
    p.saves r = true ↔ r.Changed o := by
  simp only [saves, List.any_eq_true, decide_eq_true_eq]
  constructor
  · rintro ⟨x, xMember, id, changed⟩
    rwa [same_of_id p x o ledger.ids xMember member (id.trans owner)] at changed
  · exact fun changed => ⟨o, member, owner.symm, changed⟩

theorem passed_refl : Passed p [] p := by
  refine ⟨⟨rfl, rfl, rfl, rfl, rfl⟩, rfl, rfl, rfl, fun o member later laterMember same => ?_, ?_, rfl⟩
  · rw [same_of_id p later o ledger.ids laterMember member same]
    exact o.relinquished_refl
  · rw [← ledger.published]
    rfl

theorem kept_of_resident (o : Managed) (i : Nat) (passed : Passed p taken m) (resident : m.Resident o.id i) :
    ¬ o.Loses taken i := by
  rintro ⟨r, rTaken, rPositive, rOwner, rChunk⟩
  obtain ⟨later, isLive, key⟩ := resident
  have distinct := ledger.distinct
  rw [live, passed.queue, List.filter_append, List.map_append] at distinct
  refine List.disjoint_of_nodup_append distinct (a := (o.id, i)) ?_ ?_
  · refine List.mem_map.mpr ⟨r, List.mem_filter.mpr ⟨rTaken, by simpa using rPositive⟩, ?_⟩
    rw [Residency.key, rOwner, rChunk]
  · exact key ▸ List.mem_map_of_mem isLive

theorem passed_evicted (oldest : Residency) (queue : CircularQueue Residency) (x later : Managed) (saved : Bool)
    (storeless : p.Storeless) (turns : Turns p m) (passed : Passed p taken m)
    (front : m.queue.toList = oldest :: queue.toList) (member : x ∈ m.objects) (of : oldest.Of x)
    (evicted : x.Evicted oldest saved later) :
    Passed p (taken ++ [oldest]) ({ m with queue }.relieved oldest saved later) := by
  have middle := ledger_turns p m ledger turns
  have positive := oldest.of_len_pos x of
  have listed : x.id ∈ p.objects.map Managed.id := passed.ids ▸ List.mem_map_of_mem member
  obtain ⟨o, oMember, same⟩ := List.mem_map.mp listed
  have relinquished := passed.objects o oMember x member same.symm
  have fresh : ¬ o.Loses taken oldest.chunk := by
    refine kept_of_resident p m taken ledger o oldest.chunk passed ⟨oldest, ?_, ?_⟩
    · exact List.mem_filter.mpr ⟨front ▸ List.mem_cons_self, decide_eq_true positive⟩
    · rw [Residency.key, of.owner, same]
  have sound := ledger.sound o oMember
  have template := o.template_relinquished x taken relinquished
  have shape : x.shape = o.shape := by rw [Managed.shape, template]
  have honest : saved = true ↔ oldest.Changed o := by
    have noStore : x.template.readOnly = true → x.swap = none := by
      intro fixed
      have none := storeless o oMember (template ▸ fixed)
      rw [← Option.not_isSome_iff_eq_none, relinquished.stores, none]
      exact Bool.false_ne_true
    rw [x.saved_iff_changed later oldest saved evicted (middle.sound x member) of noStore, Residency.Changed,
      Residency.Changed, template, o.contents_relinquished x taken relinquished oldest.chunk (shape ▸ of.chunk) fresh]
  have writes : p.saves oldest = saved :=
    Bool.eq_iff_iff.mpr ((saves_iff p ledger o oldest oMember (of.owner.trans same.symm)).trans honest.symm)
  have live : (taken ++ [oldest]).filter (fun r => 0 < r.len) = (taken.filter fun r => 0 < r.len) ++ [oldest] := by
    rw [List.filter_append, List.filter_cons_of_pos (by simpa using positive), List.filter_nil]
  have known : later.id ∈ m.objects.map Managed.id :=
    (x.evicted_becomes later oldest saved evicted).id ▸ List.mem_map_of_mem member
  have enough : oldest.len ≤ m.resident := by
    rw [← middle.total, queued_pop m oldest queue front]
    omega
  refine ⟨passed.rest, ?_, ?_, (revised_ids m.objects later).trans passed.ids, fun y yMember z zMember id => ?_, ?_, ?_⟩
  · rw [passed.queue, front, List.append_assoc]
    rfl
  · show m.resident - oldest.len + bytes (taken ++ [oldest]) = p.resident
    have resident := passed.resident
    rw [bytes_append]
    omega
  · rcases (mem_revised m.objects later z known).mp zMember with rfl | ⟨zMember, apart⟩
    · have own : y = o := same_of_id p y o ledger.ids yMember oMember
        (id.symm.trans ((x.evicted_becomes z oldest saved evicted).id.trans same.symm))
      subst own
      exact y.relinquished_evicted x z taken oldest saved relinquished evicted of fresh honest
    · refine y.relinquished_other z taken oldest (passed.objects y yMember z zMember id) fun i holds => apart ?_
      rw [id, ← holds.2.1, of.owner, (x.evicted_becomes later oldest saved evicted).id]
  · have peak := ledger.peak
    have fewer : m.resident ≤ p.resident := by
      have resident := passed.resident
      omega
    have stays : max m.counters.peakResidentBytes (m.resident - oldest.len) = p.counters.peakResidentBytes := by
      rw [passed.counters]
      show max p.counters.peakResidentBytes _ = _
      omega
    simp only [relieved, Counters.setResident, stays, live, List.countP_append, List.length_append, List.countP_cons,
      List.countP_nil, writes]
    rw [passed.counters]
    cases saved <;> rfl
  · simp only [relieved, reclaims, live, List.map_append, List.reverse_append, List.map_cons, List.map_nil,
      List.reverse_cons, List.reverse_nil, List.nil_append, List.cons_append, writes]
    rw [passed.journal]
    rfl

variable (storeless : p.Storeless)

include storeless

theorem passed_turn (turns : Turns p m) (passed : Passed p taken m) (turn : Turn m q) :
    ∃ oldest, Passed p (taken ++ [oldest]) q := by
  have middle := ledger_turns p m ledger turns
  cases turn with
  | retired oldest queue popped len =>
      obtain ⟨-, front, -⟩ := pop_front m.queue queue oldest middle.queue popped
      exact ⟨oldest, passed_retired p m taken oldest queue passed front len⟩
  | evicted oldest queue x later saved popped member of evicted =>
      obtain ⟨-, front, -⟩ := pop_front m.queue queue oldest middle.queue popped
      exact ⟨oldest, passed_evicted p m taken ledger oldest queue x later saved storeless turns passed front member of evicted⟩

theorem passed_turns (turns : Turns p q) : ∃ taken, Passed p taken q := by
  induction turns with
  | refl => exact ⟨[], passed_refl p ledger⟩
  | tail before last ih =>
      obtain ⟨taken, passed⟩ := ih
      obtain ⟨oldest, later⟩ := passed_turn p _ _ taken ledger storeless before passed last
      exact ⟨_, later⟩

theorem passed_pass (incoming : Nat) (pass : Pass incoming p q) :
    ∃ taken, Passed p taken q ∧
      ∀ k, k < taken.length → p.settings.low < p.resident - bytes (taken.take k) + incoming := by
  induction pass with
  | refl => exact ⟨[], passed_refl p ledger, fun k impossible => absurd impossible (Nat.not_lt_zero k)⟩
  | tail before last ih =>
      obtain ⟨taken, passed, needed⟩ := ih
      obtain ⟨short, turn⟩ := last
      obtain ⟨oldest, later⟩ := passed_turn p _ _ taken ledger storeless (turns_of_pass p _ incoming before) passed turn
      refine ⟨taken ++ [oldest], later, fun k inside => ?_⟩
      have resident := passed.resident
      rw [passed.rest.1] at short
      rw [List.length_append, List.length_singleton] at inside
      by_cases last : k = taken.length
      · rw [last, List.take_left]
        omega
      · rw [List.take_append_of_le_length (by omega)]
        exact needed k (by omega)

theorem make_room_exact (host : Host) (releases : host.Releases) (incoming : Nat) (fits : p.resident + incoming < Word.limit) :
    (p.resident + incoming ≤ p.settings.high → (makeRoom host incoming).run p = .ok () p) ∧
    (p.settings.high < p.resident + incoming → incoming ≤ p.settings.low →
      ∃ q taken, (makeRoom host incoming).run p = .ok () q ∧ Passed p taken q ∧ q.resident + incoming ≤ p.settings.low ∧
        ∀ k, k < taken.length → p.settings.low < p.resident - bytes (taken.take k) + incoming) ∧
    (p.settings.high < p.resident + incoming → p.settings.low < incoming →
      ∃ q, (makeRoom host incoming).run p = .error (.failed (.budgetExhausted incoming 0 p.settings.low)) q ∧
        Passed p p.queue.toList q ∧ q.resident = 0) := by
  have ensures := make_room_ensures host p incoming ledger
  cases run : (makeRoom host incoming).run p with
  | ok _ q =>
      have made := ensures_result _ _ _ _ _ _ ensures run
      cases made with
      | enough room => exact ⟨fun _ => rfl, fun above => absurd room (by omega), fun above => absurd room (by omega)⟩
      | passed q above pass room =>
          refine ⟨fun below => absurd above (by omega), fun _ _ => ?_, fun _ large => absurd room (by omega)⟩
          obtain ⟨taken, passed, needed⟩ := passed_pass p q ledger storeless incoming pass
          exact ⟨q, taken, rfl, passed, room, needed⟩
  | error halt q =>
      have failed := ensures_failure _ _ _ _ _ _ ensures run
      cases failed with
      | overflow excess => exact absurd fits excess
      | exhausted q above pass fits large nothing =>
          refine ⟨fun below => absurd above (by omega), fun _ small => absurd large (by omega), fun _ _ => ?_⟩
          obtain ⟨taken, passed, -⟩ := passed_pass p q ledger storeless incoming pass
          have empty : q.queue.toList = [] := List.length_eq_zero_iff.mp (q.queue.length_to_list.trans nothing)
          have whole := passed.queue
          rw [empty, List.append_nil] at whole
          have after := ledger_turns p q ledger (turns_of_pass p q incoming pass)
          exact ⟨q, rfl, whole ▸ passed, resident_of_no_records q after nothing⟩
      | stalled halt q stalls =>
          obtain ⟨last, queue, -, unreleased⟩ := stalls
          exact absurd releases unreleased.strict

end

end Pager

end DemandPaging
