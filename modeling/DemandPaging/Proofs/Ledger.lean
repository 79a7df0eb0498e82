import Mathlib.Algebra.Ring.Nat
import Mathlib.Data.List.Nodup
import DemandPaging.Pager.Fault
import DemandPaging.Pager.Objects
import DemandPaging.Proofs.QueueOrder
import DemandPaging.Proofs.RangeInsertion
import DemandPaging.Proofs.SwapContents

set_option autoImplicit false

namespace DemandPaging

variable [Platform]

namespace Managed

abbrev shape (o : Managed) : Shape := o.template.shape

def entry (o : Managed) : Entry ObjectId := ⟨o.mapping.base, o.mapping.len, o.id⟩

def hasBody (o : Managed) (k : Nat) : Bool := o.mapping.isPresent (o.shape.headerPadded + k)

structure Sound (o : Managed) : Prop where
  layout : o.layout = o.shape.layout
  len : o.mapping.len = o.shape.size
  own : o.mapping.shared = false
  header : ∀ page, page < o.shape.headerPadded / Page.size → o.mapping.bytes.isPresent page = true
  store : ∀ s, o.swap = some s → s.Sound o.shape
  writable : o.template.readOnly = false → o.shape.bodyLen ≠ 0 → o.swap.isSome = true

-- The same object at another time: its bytes, its saved chunks and its calls may differ.
structure Becomes (o later : Managed) : Prop where
  id : later.id = o.id
  template : later.template = o.template
  base : later.mapping.base = o.mapping.base
  len : later.mapping.len = o.mapping.len
  store : (later.swap.map fun s => s.map.span) = o.swap.map fun s => s.map.span

theorem becomes_refl (o : Managed) : o.Becomes o := ⟨rfl, rfl, rfl, rfl, rfl⟩

theorem becomes_trans (o middle later : Managed) (first : o.Becomes middle) (second : middle.Becomes later) :
    o.Becomes later :=
  ⟨second.id.trans first.id, second.template.trans first.template, second.base.trans first.base,
    second.len.trans first.len, second.store.trans first.store⟩

theorem becomes_entry (o later : Managed) (becomes : o.Becomes later) : later.entry = o.entry := by
  simp only [entry, becomes.base, becomes.len, becomes.id]

theorem becomes_shape (o later : Managed) (becomes : o.Becomes later) : later.shape = o.shape := by
  simp only [shape, becomes.template]

theorem becomes_span (o later : Managed) (becomes : o.Becomes later) : later.mapping.span = o.mapping.span := by
  simp only [Mapping.span, becomes.base, becomes.len]

theorem stores_becomes (o later : Managed) (becomes : o.Becomes later) : later.swap.isSome = o.swap.isSome := by
  have store := congrArg Option.isSome becomes.store
  rw [Option.isSome_map, Option.isSome_map] at store
  exact store

theorem holds_of_offset (o : Managed) (k : Nat) (sound : o.Sound) (inside : k < o.shape.size) :
    o.entry.Holds (o.mapping.base + k) :=
  ⟨Nat.le_add_right _ _, Nat.add_lt_add_left (Nat.lt_of_lt_of_eq inside sound.len.symm) _⟩

theorem holds_of_header (o : Managed) (address : Nat) (sound : o.Sound) (low : o.mapping.base ≤ address)
    (high : address - o.mapping.base < o.shape.headerPadded) : o.entry.Holds address := by
  have inside : address - o.mapping.base < o.shape.size := Nat.lt_of_lt_of_le high (Nat.le_add_right _ _)
  have holds := o.holds_of_offset (address - o.mapping.base) sound inside
  rwa [Nat.add_sub_cancel' low] at holds

end Managed

namespace Residency

def key (r : Residency) : ObjectId × Nat := (r.owner, r.chunk)

structure Of (r : Residency) (o : Managed) : Prop where
  owner : r.owner = o.id
  chunk : r.chunk < o.shape.chunks
  address : r.address = o.mapping.base + (o.shape.headerPadded + (o.shape.piece r.chunk).bodyOffset)
  len : r.len = (o.shape.piece r.chunk).fillLen

theorem of_becomes (r : Residency) (o later : Managed) (becomes : o.Becomes later) (of : r.Of o) : r.Of later := by
  have shape := Managed.becomes_shape o later becomes
  exact ⟨of.owner.trans becomes.id.symm, shape ▸ of.chunk, by rw [becomes.base, shape, of.address], by rw [shape, of.len]⟩

theorem of_len_pos (r : Residency) (o : Managed) (of : r.Of o) : 0 < r.len :=
  of.len ▸ o.shape.piece_fill_pos r.chunk of.chunk

end Residency

namespace Pager

def revised (objects : List Managed) (later : Managed) : List Managed :=
  objects.map fun o => if o.id = later.id then later else o

structure Lasts (p q : Pager) : Prop where
  forth : ∀ o ∈ p.objects, ∃ later ∈ q.objects, o.Becomes later
  back : ∀ later ∈ q.objects, ∃ o ∈ p.objects, o.Becomes later

theorem lasts_of_objects (p q : Pager) (objects : q.objects = p.objects) : Lasts p q :=
  ⟨fun o member => ⟨o, objects ▸ member, o.becomes_refl⟩, fun o member => ⟨o, objects ▸ member, o.becomes_refl⟩⟩

theorem lasts_trans (p q s : Pager) (first : Lasts p q) (second : Lasts q s) : Lasts p s := by
  constructor
  · intro o member
    obtain ⟨middle, middleMember, before⟩ := first.forth o member
    obtain ⟨later, laterMember, after⟩ := second.forth middle middleMember
    exact ⟨later, laterMember, o.becomes_trans middle later before after⟩
  · intro later laterMember
    obtain ⟨middle, middleMember, after⟩ := second.back later laterMember
    obtain ⟨o, member, before⟩ := first.back middle middleMember
    exact ⟨o, member, o.becomes_trans middle later before after⟩

def live (p : Pager) : List Residency := p.queue.toList.filter fun r => 0 < r.len

def Resident (p : Pager) (id : ObjectId) (i : Nat) : Prop := ∃ r ∈ p.live, r.key = (id, i)

instance (p : Pager) (id : ObjectId) (i : Nat) : Decidable (p.Resident id i) :=
  inferInstanceAs (Decidable (∃ r ∈ p.live, r.key = (id, i)))

structure Catalogue (p : Pager) : Prop where
  marks : p.settings.low < p.settings.high
  index : p.index.Sound
  indexed : ∀ e, e ∈ p.index.toList ↔ ∃ o ∈ p.objects, o.entry = e
  ids : (p.objects.map Managed.id).Nodup
  sound : ∀ o ∈ p.objects, o.Sound
  affordable : ∀ o ∈ p.objects, ∀ i, i < o.shape.chunks → (o.shape.piece i).fillLen ≤ p.settings.high
  watched : ∀ o ∈ p.objects, o.mapping.span ∈ p.watched
  remains : p.remains = []

-- The records of resident chunks are told apart by object and chunk and describe what is mapped; the pages of a body that
-- exist are those of its resident chunks; and the count of resident bytes is exact, published and within its limit.
structure Ledger (p : Pager) : Prop extends Catalogue p where
  queue : p.queue.WellFormed
  distinct : (p.live.map Residency.key).Nodup
  owned : ∀ r ∈ p.live, ∃ o ∈ p.objects, r.Of o
  present : ∀ o ∈ p.objects, ∀ k, k < o.shape.bodyReserved →
    (o.hasBody k = true ↔ p.Resident o.id (k / o.shape.chunkLen))
  total : p.queuedBytes = p.resident
  published : p.counters.residentBytes = p.resident
  peak : p.resident ≤ p.counters.peakResidentBytes ∧ p.counters.peakResidentBytes ≤ p.settings.high

section

variable (p : Pager) (o : Managed)

theorem same_of_id (other : Managed) (ids : (p.objects.map Managed.id).Nodup) (member : o ∈ p.objects)
    (otherMember : other ∈ p.objects) (same : o.id = other.id) : o = other :=
  List.inj_on_of_nodup_map ids member otherMember same

theorem object_none_iff (id : ObjectId) : p.object? id = none ↔ ∀ o ∈ p.objects, o.id ≠ id := by
  simp [object?]

theorem object_some_iff (id : ObjectId) (ids : (p.objects.map Managed.id).Nodup) :
    p.object? id = some o ↔ o ∈ p.objects ∧ o.id = id := by
  constructor
  · intro found
    exact ⟨List.mem_of_find?_eq_some found, by simpa using List.find?_some found⟩
  · intro given
    obtain ⟨member, rfl⟩ := given
    cases found : p.object? o.id with
    | none => exact absurd rfl ((object_none_iff p o.id).mp found o member)
    | some other =>
        have otherMember := List.mem_of_find?_eq_some found
        have otherId : other.id = o.id := by simpa using List.find?_some found
        rw [same_of_id p other o ids otherMember member otherId]

theorem modify_object_eq (f : Managed → Managed) (ids : (p.objects.map Managed.id).Nodup) (member : o ∈ p.objects)
    (keeps : (f o).id = o.id) : p.modifyObject o.id f = { p with objects := revised p.objects (f o) } := by
  unfold modifyObject revised
  congr 1
  apply List.map_congr_left
  intro x xMember
  rw [keeps]
  by_cases same : x.id = o.id
  · rw [if_pos same, if_pos same, same_of_id p x o ids xMember member same]
  · rw [if_neg same, if_neg same]

theorem mem_revised (objects : List Managed) (later x : Managed) (known : later.id ∈ objects.map Managed.id) :
    x ∈ revised objects later ↔ x = later ∨ (x ∈ objects ∧ x.id ≠ later.id) := by
  simp only [revised, List.mem_map]
  constructor
  · intro given
    obtain ⟨y, member, rfl⟩ := given
    by_cases same : y.id = later.id
    · rw [if_pos same]
      exact Or.inl rfl
    · rw [if_neg same]
      exact Or.inr ⟨member, same⟩
  · intro given
    obtain rfl | ⟨member, apart⟩ := given
    · obtain ⟨y, member, same⟩ := List.mem_map.mp known
      exact ⟨y, member, by rw [if_pos same]⟩
    · exact ⟨x, member, by rw [if_neg apart]⟩

theorem revised_ids (objects : List Managed) (later : Managed) :
    (revised objects later).map Managed.id = objects.map Managed.id := by
  rw [revised]
  rw [List.map_map]
  apply List.map_congr_left
  intro x _
  simp only [Function.comp]
  by_cases same : x.id = later.id
  · rw [if_pos same, same]
  · rw [if_neg same]

theorem revised_self (ids : (p.objects.map Managed.id).Nodup) (member : o ∈ p.objects) : revised p.objects o = p.objects := by
  rw [revised]
  calc p.objects.map (fun x => if x.id = o.id then o else x)
      = p.objects.map (fun x => x) := by
        apply List.map_congr_left
        intro x xMember
        by_cases same : x.id = o.id
        · rw [if_pos same, same_of_id p x o ids xMember member same]
        · rw [if_neg same]
    _ = p.objects := List.map_id' _

theorem revised_revised (objects : List Managed) (first second : Managed) (same : first.id = second.id) :
    revised (revised objects first) second = revised objects second := by
  unfold revised
  rw [List.map_map]
  apply List.map_congr_left
  intro x _
  simp only [Function.comp]
  by_cases hit : x.id = second.id
  · rw [if_pos (hit.trans same.symm), if_pos hit, if_pos same]
  · have apart : x.id ≠ first.id := fun equal => hit (equal.trans same)
    rw [if_neg apart, if_neg hit]

theorem lasts_revised (q : Pager) (later : Managed) (ids : (p.objects.map Managed.id).Nodup) (member : o ∈ p.objects)
    (becomes : o.Becomes later) (objects : q.objects = revised p.objects later) : Lasts p q := by
  have known : later.id ∈ p.objects.map Managed.id := becomes.id ▸ List.mem_map_of_mem member
  have members := fun x => mem_revised p.objects later x known
  rw [← objects] at members
  constructor
  · intro x xMember
    by_cases same : x.id = o.id
    · rw [same_of_id p x o ids xMember member same]
      exact ⟨later, (members later).mpr (Or.inl rfl), becomes⟩
    · exact ⟨x, (members x).mpr (Or.inr ⟨xMember, becomes.id ▸ same⟩), x.becomes_refl⟩
  · intro x xMember
    rcases (members x).mp xMember with rfl | ⟨xMember, -⟩
    · exact ⟨o, member, becomes⟩
    · exact ⟨x, xMember, x.becomes_refl⟩

theorem owned_revised (later : Managed) (r : Residency) (ids : (p.objects.map Managed.id).Nodup) (member : o ∈ p.objects)
    (becomes : o.Becomes later) (owned : ∃ x ∈ p.objects, r.Of x) : ∃ x ∈ revised p.objects later, r.Of x := by
  obtain ⟨x, xMember, xOf⟩ := owned
  obtain ⟨next, nextMember, xBecomes⟩ :=
    (lasts_revised p o { p with objects := revised p.objects later } later ids member becomes rfl).forth x xMember
  exact ⟨next, nextMember, r.of_becomes x next xBecomes xOf⟩

theorem catalogue_revise (q : Pager) (later : Managed) (catalogue : Catalogue p) (member : o ∈ p.objects)
    (becomes : o.Becomes later) (sound : later.Sound) (objects : q.objects = revised p.objects later)
    (rest : q.settings = p.settings ∧ q.index = p.index ∧ q.watched = p.watched ∧ q.remains = p.remains) :
    Catalogue q := by
  obtain ⟨settings, index, watched, remains⟩ := rest
  have known : later.id ∈ p.objects.map Managed.id := becomes.id ▸ List.mem_map_of_mem member
  have members := fun x => mem_revised p.objects later x known
  have shape := Managed.becomes_shape o later becomes
  have replaced : ∀ x ∈ p.objects, x.id = later.id → x = o := fun x xMember same =>
    same_of_id p x o catalogue.ids xMember member (same.trans becomes.id)
  constructor
  · rw [settings]
    exact catalogue.marks
  · rw [index]
    exact catalogue.index
  · intro e
    rw [index, catalogue.indexed, objects]
    constructor
    · intro given
      obtain ⟨x, xMember, rfl⟩ := given
      by_cases same : x.id = later.id
      · rw [replaced x xMember same]
        exact ⟨later, (members later).mpr (Or.inl rfl), Managed.becomes_entry o later becomes⟩
      · exact ⟨x, (members x).mpr (Or.inr ⟨xMember, same⟩), rfl⟩
    · intro given
      obtain ⟨x, xMember, rfl⟩ := given
      rcases (members x).mp xMember with rfl | ⟨xMember, _⟩
      · exact ⟨o, member, (Managed.becomes_entry o x becomes).symm⟩
      · exact ⟨x, xMember, rfl⟩
  · rw [objects, revised_ids]
    exact catalogue.ids
  · rw [objects]
    intro x xMember
    rcases (members x).mp xMember with rfl | ⟨xMember, _⟩
    · exact sound
    · exact catalogue.sound x xMember
  · rw [objects, settings]
    intro x xMember
    rcases (members x).mp xMember with rfl | ⟨xMember, _⟩
    · rw [shape]
      exact catalogue.affordable o member
    · exact catalogue.affordable x xMember
  · rw [objects, watched]
    intro x xMember
    rcases (members x).mp xMember with rfl | ⟨xMember, _⟩
    · rw [Managed.becomes_span o x becomes]
      exact catalogue.watched o member
    · exact catalogue.watched x xMember
  · rw [remains]
    exact catalogue.remains

theorem ledger_revise (q : Pager) (later : Managed) (ledger : Ledger p) (member : o ∈ p.objects) (becomes : o.Becomes later)
    (sound : later.Sound) (pages : ∀ k, k < o.shape.bodyReserved → later.hasBody k = o.hasBody k)
    (objects : q.objects = revised p.objects later) (queue : q.queue = p.queue)
    (rest : q.settings = p.settings ∧ q.index = p.index ∧ q.watched = p.watched ∧ q.remains = p.remains)
    (counts : q.resident = p.resident ∧ q.counters.residentBytes = p.counters.residentBytes ∧
      q.counters.peakResidentBytes = p.counters.peakResidentBytes) : Ledger q := by
  obtain ⟨resident, residentBytes, peak⟩ := counts
  have known : later.id ∈ p.objects.map Managed.id := becomes.id ▸ List.mem_map_of_mem member
  have shape := o.becomes_shape later becomes
  have live : q.live = p.live := by simp only [live, queue]
  have isResident : ∀ id i, q.Resident id i ↔ p.Resident id i := fun id i => by simp only [Resident, live]
  refine { catalogue_revise p o q later ledger.toCatalogue member becomes sound objects rest with
    queue := queue ▸ ledger.queue, distinct := live ▸ ledger.distinct, owned := fun r isLive => ?_
    present := fun x xMember k body => ?_, total := ?_, published := ?_, peak := ?_ }
  · rw [objects]
    exact owned_revised p o later r ledger.ids member becomes (ledger.owned r (live ▸ isLive))
  · rw [isResident]
    rw [objects] at xMember
    rcases (mem_revised p.objects later x known).mp xMember with rfl | ⟨xMember, _⟩
    · rw [shape] at body ⊢
      rw [pages k body, becomes.id]
      exact ledger.present o member k body
    · exact ledger.present x xMember k body
  · rw [resident, ← ledger.total, queuedBytes, queuedBytes, queue]
  · rw [residentBytes, resident]
    exact ledger.published
  · rw [peak, resident, rest.1]
    exact ledger.peak

theorem find_iff (address : Nat) (e : Entry ObjectId) (catalogue : Catalogue p) :
    p.index.find? address = some e ↔ ∃ o ∈ p.objects, o.entry = e ∧ e.Holds address := by
  rw [p.index.find_eq_some_iff address e catalogue.index, catalogue.indexed]
  constructor
  · intro given
    obtain ⟨⟨x, member, same⟩, holds⟩ := given
    exact ⟨x, member, same, holds⟩
  · intro given
    obtain ⟨x, member, same, holds⟩ := given
    exact ⟨⟨x, member, same⟩, holds⟩

theorem object_bounds (catalogue : Catalogue p) (member : o ∈ p.objects) :
    0 < o.mapping.len ∧ o.mapping.base + o.mapping.len < Word.limit := by
  have listed : o.entry ∈ p.index.toList := (catalogue.indexed _).mpr ⟨o, member, rfl⟩
  exact catalogue.index.proper _ ((p.index.mem_to_list_iff _).mp listed) _ rfl

theorem same_of_address (other : Managed) (address : Nat) (catalogue : Catalogue p) (member : o ∈ p.objects)
    (otherMember : other ∈ p.objects) (holds : o.entry.Holds address) (otherHolds : other.entry.Holds address) :
    o = other := by
  have same := p.index.sound_holds_unique address o.entry other.entry catalogue.index
    ((catalogue.indexed _).mpr ⟨o, member, rfl⟩) ((catalogue.indexed _).mpr ⟨other, otherMember, rfl⟩) holds otherHolds
  exact same_of_id p o other catalogue.ids member otherMember (congrArg Entry.owner same)

theorem same_of_base (other : Managed) (catalogue : Catalogue p) (member : o ∈ p.objects)
    (otherMember : other ∈ p.objects) (same : o.mapping.base = other.mapping.base) : o = other := by
  have first := (object_bounds p o catalogue member).1
  have second := (object_bounds p other catalogue otherMember).1
  apply same_of_address p o other o.mapping.base catalogue member otherMember
  · exact ⟨Nat.le_refl _, Nat.lt_add_of_pos_right first⟩
  · exact ⟨Nat.le_of_eq same.symm, same ▸ Nat.lt_add_of_pos_right second⟩

theorem chunk_of_live (ledger : Ledger p) (r : Residency) (isLive : r ∈ p.live) :
    ∃ o ∈ p.objects, ∃ count chunk, r.owner = o.id ∧ o.layout.chunkCount = .ok count ∧ r.chunk < count ∧
      o.layout.chunk r.chunk = .ok chunk ∧
      r.address = o.mapping.base + o.layout.headerPadded + chunk.bodyOffset ∧ r.len = chunk.fillLen := by
  obtain ⟨o, member, of⟩ := ledger.owned r isLive
  have sound := ledger.sound o member
  refine ⟨o, member, o.shape.chunks, o.shape.piece r.chunk, of.owner, ?_, of.chunk, ?_, ?_, of.len⟩
  · rw [sound.layout, o.shape.layout_chunk_count]
  · rw [sound.layout, o.shape.layout_chunk]
  · rw [sound.layout, of.address, Nat.add_assoc]
    rfl

theorem page_iff_live (ledger : Ledger p) (member : o ∈ p.objects) (k : Nat) (body : k < o.layout.bodyReserved) :
    ∃ chunk, o.layout.chunkAt k = .ok (some chunk) ∧
      (o.mapping.isPresent (o.layout.headerPadded + k) = true ↔
        ∃ r ∈ p.live, r.owner = o.id ∧ r.chunk = chunk.index) := by
  have sound := ledger.sound o member
  rw [sound.layout] at body ⊢
  refine ⟨o.shape.piece (k / o.shape.chunkLen), ?_, ?_⟩
  · have inside : ¬ o.shape.bodyReserved ≤ k := Nat.not_le.mpr body
    rw [o.shape.layout_chunk_at, if_neg inside]
  · refine (ledger.present o member k body).trans ?_
    simp only [Resident, Residency.key, Prod.mk.injEq]
    exact Iff.rfl

theorem pages_together (ledger : Ledger p) (member : o ∈ p.objects) (k j : Nat) (first : k < o.layout.bodyReserved)
    (second : j < o.layout.bodyReserved) (same : o.layout.chunkAt k = o.layout.chunkAt j) :
    o.mapping.isPresent (o.layout.headerPadded + k) = o.mapping.isPresent (o.layout.headerPadded + j) := by
  obtain ⟨chunk, located, exists₁⟩ := page_iff_live p o ledger member k first
  obtain ⟨other, otherLocated, exists₂⟩ := page_iff_live p o ledger member j second
  rw [same, otherLocated] at located
  cases located
  exact Bool.eq_iff_iff.mpr (exists₁.trans exists₂.symm)

theorem header_present (ledger : Ledger p) (member : o ∈ p.objects) (k : Nat) (header : k < o.layout.headerPadded) :
    o.mapping.isPresent k = true := by
  have sound := ledger.sound o member
  rw [sound.layout] at header
  exact sound.header _ (o.shape.header_page k header)

theorem queued_bytes_eq : p.queuedBytes = (p.queue.toList.map Residency.len).sum := rfl

theorem sum_live : (p.live.map Residency.len).sum = p.queuedBytes := by
  rw [live, queued_bytes_eq]
  generalize p.queue.toList = records
  induction records with
  | nil => rfl
  | cons r rest ih =>
      by_cases positive : 0 < r.len
      · simp [positive, ih]
      · have zero : r.len = 0 := Nat.eq_zero_of_not_pos positive
        simp [zero, ih]

end

end Pager

end DemandPaging
