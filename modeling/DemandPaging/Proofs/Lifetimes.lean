import DemandPaging.Proofs.GivingBack
import DemandPaging.Proofs.RangeSet

set_option autoImplicit false

namespace DemandPaging

def Residency.retired (id : ObjectId) (r : Residency) : Residency := if r.owner = id then { r with len := 0 } else r

theorem Pager.subtract_all (records : List Residency) (n : Nat) (enough : (records.map Residency.len).sum ≤ n) :
    records.foldl (fun (acc : Nat × Bool) r => if r.len ≤ acc.1 then (acc.1 - r.len, acc.2) else (acc.1, true)) (n, false) =
      (n - (records.map Residency.len).sum, false) := by
  induction records generalizing n with
  | nil => rfl
  | cons r rest ih =>
      simp only [List.map_cons, List.sum_cons] at enough ⊢
      rw [List.foldl_cons, if_pos (by omega : r.len ≤ n), ih (n - r.len) (by omega), Nat.sub_sub]

theorem Pager.sum_retired (id : ObjectId) (records : List Residency) :
    ((records.map (Residency.retired id)).map Residency.len).sum +
      (((records.filter fun r => 0 < r.len).filter fun r => r.owner = id).map Residency.len).sum =
      (records.map Residency.len).sum := by
  induction records with
  | nil => rfl
  | cons r rest ih =>
      simp only [List.map_cons, List.sum_cons, Residency.retired, List.filter_cons]
      by_cases owned : r.owner = id
      · by_cases positive : 0 < r.len
        · simp only [owned, positive, if_true, decide_true, List.filter_cons, List.map_cons, List.sum_cons]
          omega
        · simp only [owned, positive, if_true, decide_false, Bool.false_eq_true, if_false]
          omega
      · by_cases positive : 0 < r.len
        · simp only [owned, positive, if_false, if_true, decide_true, List.filter_cons, decide_false, Bool.false_eq_true]
          omega
        · simp only [owned, positive, if_false, decide_false, Bool.false_eq_true]
          omega

variable [Platform]

namespace Pager

def ownedBytes (p : Pager) (id : ObjectId) : Nat :=
  ((p.live.filter fun r => r.owner = id).map Residency.len).sum

def retiring (p : Pager) (id : ObjectId) : Pager :=
  { p with queue := p.queue.map (Residency.retired id), resident := p.resident - p.ownedBytes id }

section

variable (p : Pager) (id : ObjectId)

theorem queued_retiring (wf : p.queue.WellFormed) :
    (p.retiring id).queuedBytes + p.ownedBytes id = p.queuedBytes := by
  have split := sum_retired id p.queue.toList
  simp only [queued_bytes_eq, ownedBytes, live, retiring, CircularQueue.to_list_map _ _ wf]
  exact split

theorem live_retiring (wf : p.queue.WellFormed) : (p.retiring id).live = p.live.filter fun r => r.owner ≠ id := by
  simp only [live, retiring, CircularQueue.to_list_map _ _ wf]
  generalize p.queue.toList = records
  induction records with
  | nil => rfl
  | cons r rest ih =>
      simp only [List.map_cons, Residency.retired, List.filter_cons]
      by_cases owned : r.owner = id
      · by_cases positive : 0 < r.len
        · simpa [owned, positive] using ih
        · simpa [owned, positive] using ih
      · by_cases positive : 0 < r.len
        · simpa [owned, positive] using ih
        · simpa [owned, positive] using ih

theorem resident_retiring (wf : p.queue.WellFormed) (other : ObjectId) (i : Nat) :
    (p.retiring id).Resident other i ↔ p.Resident other i ∧ other ≠ id := by
  rw [Resident]
  rw [live_retiring p id wf]
  simp only [List.mem_filter, decide_eq_true_eq]
  constructor
  · intro given
    obtain ⟨r, ⟨isLive, apart⟩, key⟩ := given
    have owner : r.owner = other := congrArg Prod.fst key
    exact ⟨⟨r, isLive, key⟩, owner ▸ apart⟩
  · intro given
    obtain ⟨⟨r, isLive, key⟩, apart⟩ := given
    have owner : r.owner = other := congrArg Prod.fst key
    exact ⟨r, ⟨isLive, owner ▸ apart⟩, key⟩

theorem retire_ensures (wf : p.queue.WellFormed) (total : p.queuedBytes = p.resident) (next : Unit → Pager → Prop)
    (stopped : Halt → Pager → Prop) : Ensures (retire id) p next stopped ↔ next () (p.retiring id) := by
  have owned : (p.queue.toList.filter fun r => decide (r.owner = id) && decide (0 < r.len)) =
      p.live.filter fun r => r.owner = id := by
    rw [live, List.filter_filter]
  have enough : ((p.live.filter fun r => r.owner = id).map Residency.len).sum ≤ p.resident := by
    have split := queued_retiring p id wf
    rw [ownedBytes] at split
    omega
  have subtracted := subtract_all _ _ enough
  rw [retire]
  simp only [ensures_bind, ensures_get, owned, subtracted, ensures_set, Bool.false_eq_true, if_false, ensures_pure]
  exact Iff.rfl

end

def freed (p : Pager) (o : Managed) (index : AddressMap ObjectId) : Pager :=
  { p.retiring o.id with
    objects := p.objects.filter fun x => x.id ≠ o.id
    watched := p.watched.erase o.mapping.span
    index
    counters := (p.counters.setResident (p.retiring o.id).resident).setLive
      (p.objects.filter fun x => x.id ≠ o.id).length }

section

variable (p : Pager) (o : Managed)

theorem ledger_freed (index : AddressMap ObjectId) (ledger : Ledger p) (member : o ∈ p.objects) (sound : index.Sound)
    (removed : p.index.toList.Perm (o.entry :: index.toList)) : Ledger (p.freed o index) := by
  have members : ∀ x, x ∈ (p.freed o index).objects ↔ x ∈ p.objects ∧ x.id ≠ o.id := by
    intro x
    simp [freed]
  have live : (p.freed o index).live = p.live.filter fun r => r.owner ≠ o.id := live_retiring p o.id ledger.queue
  have queued : (p.freed o index).queuedBytes + p.ownedBytes o.id = p.queuedBytes :=
    queued_retiring p o.id ledger.queue
  have resident : (p.freed o index).resident = p.resident - p.ownedBytes o.id := rfl
  have total := ledger.total
  have peak := ledger.peak
  have nodup := AddressMap.lists_nodup _ _ (p.index.to_list_lists ledger.index)
  rw [removed.nodup_iff, List.nodup_cons] at nodup
  refine {
    marks := ledger.marks, index := sound, indexed := fun e => ?_, ids := ?_
    sound := fun x xMember => ledger.sound x ((members x).mp xMember).1
    affordable := fun x xMember => ledger.affordable x ((members x).mp xMember).1
    watched := fun x xMember => ?_, remains := ledger.remains
    queue := CircularQueue.well_formed_map _ _ ledger.queue, distinct := ?_, owned := fun r isLive => ?_
    present := fun x xMember k body => ?_, total := ?_, published := rfl, peak := ?_ }
  · show e ∈ index.toList ↔ _
    have before : e ∈ p.index.toList ↔ e = o.entry ∨ e ∈ index.toList := by rw [removed.mem_iff, List.mem_cons]
    constructor
    · intro listed
      obtain ⟨x, xMember, rfl⟩ := (ledger.indexed e).mp (before.mpr (Or.inr listed))
      refine ⟨x, (members x).mpr ⟨xMember, fun same => ?_⟩, rfl⟩
      rw [same_of_id p x o ledger.ids xMember member same] at listed
      exact nodup.1 listed
    · intro given
      obtain ⟨x, xMember, rfl⟩ := given
      obtain ⟨xMember, apart⟩ := (members x).mp xMember
      rcases before.mp ((ledger.indexed x.entry).mpr ⟨x, xMember, rfl⟩) with same | listed
      · exact absurd (congrArg Entry.owner same) apart
      · exact listed
  · exact ledger.ids.sublist (List.filter_sublist.map _)
  · obtain ⟨xMember, apart⟩ := (members x).mp xMember
    have otherSpan : x.mapping.span ≠ o.mapping.span := by
      intro same
      have base : x.mapping.base = o.mapping.base := congrArg Span.base same
      exact apart (congrArg Managed.id (same_of_base p x o ledger.toCatalogue xMember member base))
    exact (List.mem_erase_of_ne otherSpan).mpr (ledger.watched x xMember)
  · rw [live]
    exact ledger.distinct.sublist (List.filter_sublist.map _)
  · rw [live, List.mem_filter] at isLive
    obtain ⟨x, xMember, xOf⟩ := ledger.owned r isLive.1
    have apart : r.owner ≠ o.id := by simpa using isLive.2
    exact ⟨x, (members x).mpr ⟨xMember, xOf.owner ▸ apart⟩, xOf⟩
  · obtain ⟨xMember, apart⟩ := (members x).mp xMember
    rw [ledger.present x xMember k body]
    have left := resident_retiring p o.id ledger.queue x.id (k / x.shape.chunkLen)
    exact ⟨fun resident => left.mpr ⟨resident, apart⟩, fun resident => (left.mp resident).1⟩
  · omega
  · simp only [freed, retiring, Counters.setLive, Counters.setResident]
    omega

theorem free_ensures (ledger : Ledger p) (member : o ∈ p.objects) :
    Ensures (free o.id) p
      (fun _ q => ∃ index, index.Sound ∧ p.index.toList.Perm (o.entry :: index.toList) ∧ q = p.freed o index)
      (fun _ _ => False) := by
  have found : p.object? o.id = some o := (object_some_iff p o o.id ledger.ids).mpr ⟨member, rfl⟩
  have listed : o.entry ∈ p.index.toList := (ledger.indexed _).mpr ⟨o, member, rfl⟩
  obtain ⟨index, removed, sound, perm⟩ := p.index.remove_live o.entry ledger.index listed
  have after := ledger_freed p o index ledger member sound perm
  have base : o.entry.base = o.mapping.base := rfl
  rw [base] at removed
  rw [free]
  simp only [ensures_bind, ensures_get, found, ensures_set, unwatch, ensures_modify, removed]
  rw [retire_ensures _ _ (by exact ledger.queue) (by exact ledger.total)]
  simp only [ensures_set_resident, ensures_count]
  have within := Nat.le_trans after.peak.1 after.peak.2
  exact (ensures_check_totals _ _ _ after.total within).mpr ⟨index, sound, perm, rfl⟩

end

def cleared (o : Managed) : Managed :=
  { o with
    mapping := { o.mapping with
      bytes := if o.shape.bodyReserved = 0 then o.mapping.bytes
        else o.mapping.bytes.drop (o.shape.headerPadded / Page.size) (Page.count o.shape.bodyReserved) }
    swap := o.swap.map SwapStore.clearDirty }

def emptied (p : Pager) (o : Managed) : Pager :=
  { p.retiring o.id with
    objects := revised p.objects (cleared o)
    counters := p.counters.setResident (p.retiring o.id).resident
    journal := .reset o.id :: p.journal }

section

variable (p : Pager) (o : Managed)

theorem cleared_becomes : o.Becomes (cleared o) := by
  refine ⟨rfl, rfl, rfl, rfl, ?_⟩
  rw [cleared, Option.map_map]
  rfl

theorem cleared_sound (sound : o.Sound) : (cleared o).Sound := by
  refine ⟨sound.layout, sound.len, sound.own, fun page header => ?_, fun s same => ?_, fun writable body => ?_⟩
  · have present := sound.header page header
    by_cases none : o.shape.bodyReserved = 0
    · simpa [cleared, none] using present
    · simp only [cleared, none, if_false, SparseBytes.present_drop, present, Bool.and_true]
      simp only [Bool.not_eq_true', decide_eq_false_iff_not]
      exact fun inside => absurd header (Nat.not_lt.mpr inside.1)
  · obtain ⟨s, store, rfl⟩ := Option.map_eq_some_iff.mp same
    exact s.clear_dirty_sound o.shape (sound.store s store)
  · rw [cleared, Option.isSome_map]
    exact sound.writable writable body

theorem cleared_has_body (k : Nat) (body : k < o.shape.bodyReserved) : (cleared o).hasBody k = false := by
  have pages := o.shape.body_pages k body
  have some : o.shape.bodyReserved ≠ 0 := by omega
  simp only [Managed.hasBody, cleared, some, if_false, Mapping.isPresent, SparseBytes.present_drop]
  simp [pages]

theorem ledger_emptied (ledger : Ledger p) (member : o ∈ p.objects) : Ledger (p.emptied o) := by
  have known : o.id ∈ p.objects.map Managed.id := List.mem_map_of_mem member
  have live : (p.emptied o).live = p.live.filter fun r => r.owner ≠ o.id := live_retiring p o.id ledger.queue
  have queued : (p.emptied o).queuedBytes + p.ownedBytes o.id = p.queuedBytes := queued_retiring p o.id ledger.queue
  have resident : (p.emptied o).resident = p.resident - p.ownedBytes o.id := rfl
  have total := ledger.total
  have peak := ledger.peak
  have catalogue : Catalogue (p.emptied o) :=
    catalogue_revise p o _ (cleared o) ledger.toCatalogue member (cleared_becomes o) (cleared_sound o (ledger.sound o member))
      rfl ⟨rfl, rfl, rfl, rfl⟩
  refine { catalogue with
    queue := CircularQueue.well_formed_map _ _ ledger.queue, distinct := ?_, owned := fun r isLive => ?_
    present := fun x xMember k body => ?_, total := by omega, published := rfl, peak := ?_ }
  · rw [live]
    exact ledger.distinct.sublist (List.filter_sublist.map _)
  · rw [live, List.mem_filter] at isLive
    exact owned_revised p o (cleared o) r ledger.ids member (cleared_becomes o) (ledger.owned r isLive.1)
  · have left := resident_retiring p o.id ledger.queue x.id (k / x.shape.chunkLen)
    show _ ↔ (p.retiring o.id).Resident x.id (k / x.shape.chunkLen)
    rw [left]
    rcases (mem_revised p.objects (cleared o) x known).mp xMember with rfl | ⟨xMember, apart⟩
    · have missing := cleared_has_body o k body
      have sameId : (cleared o).id = o.id := rfl
      simp [missing, sameId]
    · rw [ledger.present x xMember k body]
      exact ⟨fun resident => ⟨resident, apart⟩, fun resident => resident.1⟩
  · simp only [emptied, retiring, Counters.setResident]
    omega

theorem reset_ensures (host : Host) (ledger : Ledger p) (member : o ∈ p.objects) :
    Ensures (reset host o.id) p (fun _ q => q = p.emptied o)
      (fun halt q => ¬ host.Releases ∧ (∃ cause, halt = .failed (.resource "madvise" cause)) ∧ q = p.retiring o.id) := by
  have found : p.object? o.id = some o := (object_some_iff p o o.id ledger.ids).mpr ⟨member, rfl⟩
  have sound := ledger.sound o member
  have after := ledger_emptied p o ledger member
  have released : o.mapping.release host o.layout.headerPadded o.layout.bodyReserved = .ok (cleared o).mapping ∨
      ¬ host.Releases ∧ ∃ cause,
        o.mapping.release host o.layout.headerPadded o.layout.bodyReserved = .error (.resource "madvise" cause) := by
    have header : o.layout.headerPadded = o.shape.headerPadded := by rw [sound.layout]; rfl
    have body : o.layout.bodyReserved = o.shape.bodyReserved := by rw [sound.layout]; rfl
    have mapped : o.shape.headerPadded + o.shape.bodyReserved ≤ o.mapping.len := Nat.le_of_eq sound.len.symm
    have whole : o.shape.headerPadded % Page.size = 0 := Nat.mod_eq_zero_of_dvd o.shape.header_whole
    simp only [header, body, Mapping.release, Mapping.check, if_pos mapped, bind, Except.bind, cleared]
    by_cases none : o.shape.bodyReserved = 0
    · rw [if_pos none, if_pos none]
      exact .inl rfl
    · simp only [if_neg none, whole, ne_eq, not_true_eq_false, if_false, Host.ask, sound.own, Bool.false_eq_true]
      generalize (⟨_, _⟩ : Span) = span
      cases answer : host.refuse (.release span) with
      | none => exact .inl rfl
      | some cause =>
          refine .inr ⟨fun releases => ?_, cause, rfl⟩
          cases (releases span).symm.trans answer
  have revise := modify_object_eq (p.retiring o.id) o
    (fun x => { x with mapping := (cleared o).mapping, swap := x.swap.map SwapStore.clearDirty }) ledger.ids member rfl
  rw [reset]
  simp only [ensures_bind, ensures_get, found]
  rw [retire_ensures _ _ ledger.queue ledger.total]
  rcases released with released | ⟨strict, cause, refused⟩
  · simp only [released, ensures_attempt_ok, ensures_modify, revise, ensures_set_resident, ensures_record]
    have within := Nat.le_trans after.peak.1 after.peak.2
    exact (ensures_check_totals _ _ _ after.total within).mpr rfl
  · simp only [refused]
    exact ⟨strict, ⟨cause, rfl⟩, rfl⟩

end

def freshObject (id : ObjectId) (template : Template) (base : Nat) (swap : Option SwapStore) : Managed where
  id
  mapping := {
    base, len := template.shape.size, shared := false
    bytes := SparseBytes.empty.zero 0 (template.shape.headerPadded / Page.size) }
  layout := template.layout
  template
  swap
  calls := 0

def grown (p : Pager) (o : Managed) (index : AddressMap ObjectId) : Pager :=
  { p with
    objects := o :: p.objects.filter fun x => x.id ≠ o.id
    index
    watched := o.mapping.span :: p.watched
    counters := p.counters.setLive (o :: p.objects.filter fun x => x.id ≠ o.id).length }

inductive Opened (host : Host) (used : List Span) (directory : String) (template : Template) : Option SwapStore → Prop where
  | needless (never : (template.readOnly || template.shape.bodyLen == 0) = true) : Opened host used directory template none
  | made (base : Nat) (needed : (template.readOnly || template.shape.bodyLen == 0) = false)
      (file : host.refuse (.createFile directory) = none)
      (size : host.refuse (.sizeFile (SwapStore.lengthFor template.shape)) = none)
      (placed : host.place used (SwapStore.lengthFor template.shape) = some base) :
      Opened host used directory template (some (SwapStore.fresh template.shape base))

inductive Unopened (host : Host) (used : List Span) (directory : String) (template : Template) : Failure → Prop where
  | file (cause : SystemError) (needed : (template.readOnly || template.shape.bodyLen == 0) = false)
      (refused : host.refuse (.createFile directory) = some cause) :
      Unopened host used directory template (.resource "create backing file" cause)
  | size (cause : SystemError) (needed : (template.readOnly || template.shape.bodyLen == 0) = false)
      (file : host.refuse (.createFile directory) = none)
      (refused : host.refuse (.sizeFile (SwapStore.lengthFor template.shape)) = some cause) :
      Unopened host used directory template (.resource "size backing file" cause)
  | memory (needed : (template.readOnly || template.shape.bodyLen == 0) = false)
      (file : host.refuse (.createFile directory) = none)
      (size : host.refuse (.sizeFile (SwapStore.lengthFor template.shape)) = none)
      (full : host.place used (SwapStore.lengthFor template.shape) = none) :
      Unopened host used directory template (.resource "mmap backing store" (.numbered SystemError.outOfMemory))

def TooLarge (p : Pager) (template : Template) : Prop :=
  0 < template.shape.elementCount ∧ p.settings.high < (template.shape.piece 0).fillLen

instance (p : Pager) (template : Template) : Decidable (p.TooLarge template) := inferInstanceAs (Decidable (_ ∧ _))

structure Maps (host : Host) (p : Pager) (template : Template) (base : Nat) : Prop where
  fits : ¬ p.TooLarge template
  nonempty : template.shape.size ≠ 0
  placed : host.place p.spans template.shape.size = some base

structure Readies (host : Host) (p : Pager) (template : Template) (base : Nat) : Prop extends Maps host p template base where
  watched : host.refuse (.watch ⟨base, template.shape.size⟩) = none
  supported : host.supports ⟨base, template.shape.size⟩ = true
  zeroed : 0 < template.shape.headerPadded → host.refuse (.zero ⟨base, template.shape.headerPadded⟩) = none

-- Why an allocation is refused, in the order in which the reasons are found.
inductive Refuses (host : Host) (p : Pager) (template : Template) : Failure → Prop where
  | tooLarge (large : p.TooLarge template) :
      Refuses host p template (.chunkExceedsBudget (template.shape.piece 0).fillLen p.settings.high)
  | empty (fits : ¬ p.TooLarge template) (nothing : template.shape.size = 0) : Refuses host p template .emptyObject
  | memory (fits : ¬ p.TooLarge template) (nonempty : template.shape.size ≠ 0)
      (full : host.place p.spans template.shape.size = none) :
      Refuses host p template (.resource "mmap" (.numbered SystemError.outOfMemory))
  | unwatched (base : Nat) (cause : SystemError) (maps : Maps host p template base)
      (refused : host.refuse (.watch ⟨base, template.shape.size⟩) = some cause) :
      Refuses host p template (.resource "UFFDIO_REGISTER" cause)
  | unsupported (base : Nat) (maps : Maps host p template base)
      (watched : host.refuse (.watch ⟨base, template.shape.size⟩) = none)
      (lacks : host.supports ⟨base, template.shape.size⟩ = false) :
      Refuses host p template (.resource "UFFDIO_REGISTER"
        (.described .unsupported "range does not support copy, zero-page and wake"))
  | unzeroed (base : Nat) (cause : SystemError) (maps : Maps host p template base)
      (watched : host.refuse (.watch ⟨base, template.shape.size⟩) = none)
      (supported : host.supports ⟨base, template.shape.size⟩ = true) (header : 0 < template.shape.headerPadded)
      (refused : host.refuse (.zero ⟨base, template.shape.headerPadded⟩) = some cause) :
      Refuses host p template (.resource "UFFDIO_ZEROPAGE" cause)
  | store (base : Nat) (failure : Failure) (readies : Readies host p template base)
      (unopened : Unopened host (⟨base, template.shape.size⟩ :: p.spans) p.settings.swapDirectory template failure) :
      Refuses host p template failure

structure Opens (host : Host) (used : List Span) (template : Template) (swap : Option SwapStore) : Prop where
  given : swap.isSome = !(template.readOnly || template.shape.bodyLen == 0)
  sound : ∀ s, swap = some s → s.Sound template.shape ∧ ∀ i, s.saved i = false
  placed : ∀ s, swap = some s → host.place used s.map.len = some s.map.base

inductive Allocated (p : Pager) (host : Host) (id : ObjectId) (template : Template) : Grant → Pager → Prop where
  | intro (base : Nat) (swap : Option SwapStore) (index : AddressMap ObjectId)
      (placed : host.place p.spans template.shape.size = some base) (sound : index.Sound)
      (listed : index.toList.Perm (⟨base, template.shape.size, id⟩ :: p.index.toList))
      (affordable : ∀ i, i < template.shape.chunks → (template.shape.piece i).fillLen ≤ p.settings.high)
      (opens : Opens host (⟨base, template.shape.size⟩ :: p.spans) template swap) :
      Allocated p host id template ⟨base, template.shape.size⟩ (p.grown (freshObject id template base swap) index)

def Refusal (template : Template) : Failure → Prop
  | .chunkExceedsBudget _ _ => True
  | .emptyObject => template.shape.size = 0
  | .resource _ _ => True
  | _ => False

section

variable (p : Pager) (host : Host) (id : ObjectId) (template : Template)

theorem check_first_chunk_ensures :
    Ensures (checkFirstChunk template.layout) p (fun _ q => q = p ∧ ¬ p.TooLarge template)
      (fun halt q => q = p ∧ p.TooLarge template ∧
        halt = .failed (.chunkExceedsBudget (template.shape.piece 0).fillLen p.settings.high)) := by
  have first : template.layout.chunk 0 = .ok (template.shape.piece 0) := template.shape.layout_chunk 0
  have elements : template.layout.elementCount = template.shape.elementCount := rfl
  rw [checkFirstChunk]
  simp only [first, elements, ensures_bind, ensures_get, ensures_ite, ensures_word_ok, ensures_fail, ensures_pure]
  exact ⟨fun some => ⟨fun above => ⟨trivial, ⟨some, above⟩, trivial⟩, fun fits => ⟨trivial, fun large => fits large.2⟩⟩,
    fun none => ⟨trivial, fun large => none large.1⟩⟩

theorem open_swap_ensures (used : List Span) :
    Ensures (openSwap host template used) p (fun swap q => q = p ∧ Opened host used p.settings.swapDirectory template swap)
      (fun halt q => q = p ∧ ∃ failure, halt = .failed failure ∧
        Unopened host used p.settings.swapDirectory template failure) := by
  have body : template.layout.bodyLen = template.shape.bodyLen := rfl
  have layout : template.layout = template.shape.layout := rfl
  rw [openSwap]
  rw [body]
  cases needed : template.readOnly || template.shape.bodyLen == 0 with
  | true => exact ⟨rfl, .needless needed⟩
  | false =>
      have some : template.shape.bodyLen ≠ 0 := by
        rw [Bool.or_eq_false_iff] at needed
        simpa using needed.2
      simp only [Bool.false_eq_true, if_false, ensures_bind, ensures_get, layout]
      rw [SwapStore.create_eq, if_neg (SwapStore.length_for_pos template.shape some)]
      cases file : host.refuse (.createFile p.settings.swapDirectory) with
      | some cause => exact ⟨rfl, _, rfl, .file cause needed file⟩
      | none =>
          cases size : host.refuse (.sizeFile (SwapStore.lengthFor template.shape)) with
          | some cause => exact ⟨rfl, _, rfl, .size cause needed file size⟩
          | none =>
              cases placed : host.place used (SwapStore.lengthFor template.shape) with
              | none => exact ⟨rfl, _, rfl, .memory needed file size placed⟩
              | some base => exact ⟨rfl, .made base needed file size placed⟩

theorem opens_of_opened (used : List Span) (directory : String) (swap : Option SwapStore)
    (opened : Opened host used directory template swap) : Opens host used template swap := by
  cases opened with
  | needless never =>
      exact ⟨by rw [never]; rfl, fun s impossible => (by cases impossible), fun s impossible => by cases impossible⟩
  | made base needed file size placed =>
      refine ⟨by rw [needed]; rfl, fun s same => ?_, fun s same => ?_⟩
      · cases same
        exact ⟨SwapStore.fresh_sound template.shape base, SwapStore.fresh_saved template.shape base⟩
      · cases same
        exact placed

theorem refusal_of_refuses (failure : Failure) (refuses : Refuses host p template failure) : Refusal template failure := by
  cases refuses with
  | tooLarge => trivial
  | empty fits nothing => exact nothing
  | memory => trivial
  | unwatched => trivial
  | unsupported => trivial
  | unzeroed => trivial
  | store base failure readies unopened => cases unopened <;> trivial

theorem enter_ensures (mapping : Mapping) (sound : p.index.Sound) :
    Ensures (enter id mapping) p
      (fun _ q => ∃ index, index.Sound ∧ index.toList.Perm (⟨mapping.base, mapping.len, id⟩ :: p.index.toList) ∧
        q = { p with index })
      (fun halt q => q = p ∧ (∃ why, halt = .failed (.invariant (.freshMapping mapping.base why))) ∧
        ¬ (mapping.len ≠ 0 ∧ mapping.base + mapping.len < Word.limit ∧
          ∀ e ∈ p.index.toList, ¬ e.Meets mapping.base mapping.len)) := by
  rw [enter]
  simp only [ensures_bind, ensures_get]
  rcases p.index.insert_cases mapping.base mapping.len id sound with
    ⟨index, inserted, indexSound, listed, -⟩ | ⟨why, refused, taken⟩
  · simp only [inserted, index.sound_in_order indexSound, if_true, ensures_set]
    exact ⟨index, indexSound, listed, rfl⟩
  · simp only [refused, ensures_breach]
    exact ⟨trivial, ⟨why, rfl⟩, taken⟩

theorem unwatched_watched (span : Span) : { p with watched := (span :: p.watched).erase span } = p := by
  rw [List.erase_cons_head]

theorem watch_ensures (span : Span) :
    Ensures (watch host span) p
      (fun _ q => host.refuse (.watch span) = none ∧ host.supports span = true ∧
        q = { p with watched := span :: p.watched })
      (fun halt q => q = p ∧
        ((∃ cause, host.refuse (.watch span) = some cause ∧ halt = .failed (.resource "UFFDIO_REGISTER" cause)) ∨
        (host.refuse (.watch span) = none ∧ host.supports span = false ∧ halt = .failed (.resource "UFFDIO_REGISTER"
          (.described .unsupported "range does not support copy, zero-page and wake"))))) := by
  rw [watch]
  rw [ensures_bind]
  rw [ensures_ask]
  refine ⟨fun watched => ?_, fun cause refused => ⟨rfl, .inl ⟨cause, refused, rfl⟩⟩⟩
  cases supported : host.supports span with
  | true =>
      simp only [ensures_bind, ensures_modify, Bool.not_true, Bool.false_eq_true, if_false, ensures_pure]
      exact ⟨watched, trivial, trivial⟩
  | false =>
      simp only [unwatch, ensures_bind, ensures_modify, Bool.not_false, if_true, ensures_fail]
      exact ⟨unwatched_watched p span, .inr ⟨watched, trivial, rfl⟩⟩

theorem zero_header_ensures (base : Nat) :
    Ensures (zeroHeader host base template.layout) p
      (fun _ q => q = p ∧
        (0 < template.shape.headerPadded → host.refuse (.zero ⟨base, template.shape.headerPadded⟩) = none))
      (fun halt q => q = p ∧ 0 < template.shape.headerPadded ∧ ∃ cause,
        host.refuse (.zero ⟨base, template.shape.headerPadded⟩) = some cause ∧
          halt = .failed (.resource "UFFDIO_ZEROPAGE" cause)) := by
  have header : template.layout.headerPadded = template.shape.headerPadded := rfl
  rw [zeroHeader]
  rw [header]
  rw [ensures_ite]
  refine ⟨fun some => ?_, fun none => ⟨rfl, fun some => absurd some none⟩⟩
  rw [ensures_ask]
  exact ⟨fun zeroed => ⟨rfl, fun _ => zeroed⟩, fun cause refused => ⟨rfl, some, cause, refused, rfl⟩⟩

theorem allocate_settles (sound : p.index.Sound) :
    Ensures (allocate host id template) p
      (fun grant q => ∃ base swap index, Readies host p template base ∧
        Opened host (⟨base, template.shape.size⟩ :: p.spans) p.settings.swapDirectory template swap ∧ index.Sound ∧
        index.toList.Perm (⟨base, template.shape.size, id⟩ :: p.index.toList) ∧ grant = ⟨base, template.shape.size⟩ ∧
        q = p.grown (freshObject id template base swap) index)
      (fun halt q => q = p ∧ ((∃ failure, halt = .failed failure ∧ Refuses host p template failure) ∨
        (∃ base why, halt = .failed (.invariant (.freshMapping base why)) ∧ Readies host p template base ∧
          ¬ (template.shape.size ≠ 0 ∧ base + template.shape.size < Word.limit ∧
            ∀ e ∈ p.index.toList, ¬ e.Meets base template.shape.size)))) := by
  have size : template.layout.trueSize = .ok template.shape.size := template.shape.layout_true_size
  rw [allocate]
  rw [ensures_bind]
  apply ensures_mono _ _ _ _ _ _ (check_first_chunk_ensures p template)
  · intro _ q done
    obtain ⟨rfl, fits⟩ := done
    simp only [size, ensures_bind, ensures_word_ok, ensures_get, Mapping.anonymous]
    by_cases nothing : template.shape.size = 0
    · rw [if_pos nothing]
      exact ⟨rfl, Or.inl ⟨_, rfl, .empty fits nothing⟩⟩
    · rw [if_neg nothing]
      cases placed : host.place q.spans template.shape.size with
      | none => exact ⟨rfl, Or.inl ⟨_, rfl, .memory fits nothing placed⟩⟩
      | some base =>
          have maps : Maps host q template base := ⟨fits, nothing, placed⟩
          simp only [ensures_attempt_ok]
          apply ensures_mono _ _ _ _ _ _ (watch_ensures q host ⟨base, template.shape.size⟩)
          · rintro _ _ ⟨watched, supported, rfl⟩
            simp only [unwatch, ensures_modify, ensures_try_catch, ensures_bind, ensures_throw, ensures_pure, ensures_count]
            apply ensures_mono _ _ _ _ _ _ (zero_header_ensures _ host template base)
            · rintro _ _ ⟨rfl, zeroed⟩
              have readies : Readies host q template base := ⟨maps, watched, supported, zeroed⟩
              apply ensures_mono _ _ _ _ _ _ (open_swap_ensures _ host template _)
              · rintro swap _ ⟨rfl, opened⟩
                apply ensures_mono _ _ _ _ _ _ (enter_ensures _ id _ (by exact sound))
                · rintro _ _ ⟨index, indexSound, listed, rfl⟩
                  exact ⟨base, swap, index, readies, opened, indexSound, listed, rfl, rfl⟩
                · rintro halt _ ⟨rfl, ⟨why, rfl⟩, taken⟩
                  exact ⟨unwatched_watched q _, Or.inr ⟨base, why, rfl, readies, taken⟩⟩
              · rintro halt _ ⟨rfl, failure, rfl, unopened⟩
                exact ⟨unwatched_watched q _, Or.inl ⟨failure, rfl, .store base failure readies unopened⟩⟩
            · rintro halt _ ⟨rfl, some, cause, refused, rfl⟩
              exact ⟨unwatched_watched q _, Or.inl ⟨_, rfl, .unzeroed base cause maps watched supported some refused⟩⟩
          · rintro halt _ ⟨rfl, ⟨cause, refused, rfl⟩ | ⟨watched, lacks, rfl⟩⟩
            · exact ⟨rfl, Or.inl ⟨_, rfl, .unwatched base cause maps refused⟩⟩
            · exact ⟨rfl, Or.inl ⟨_, rfl, .unsupported base maps watched lacks⟩⟩
  · intro halt q failed
    obtain ⟨rfl, large, rfl⟩ := failed
    exact ⟨rfl, Or.inl ⟨_, rfl, .tooLarge large⟩⟩

theorem affordable_of_fits (fits : ¬ p.TooLarge template) (i : Nat) (inside : i < template.shape.chunks) :
    (template.shape.piece i).fillLen ≤ p.settings.high := by
  have starts := template.shape.chunk_starts i inside
  have first := template.shape.piece_fill_le_first i inside
  rw [TooLarge] at fits
  omega

theorem allocate_ensures (sound : p.index.Sound) :
    Ensures (allocate host id template) p (fun grant q => Allocated p host id template grant q)
      (fun halt q => q = p ∧ ((∃ failure, halt = .failed failure ∧ Refusal template failure) ∨
        (∃ base why, halt = .failed (.invariant (.freshMapping base why)) ∧
          host.place p.spans template.shape.size = some base ∧
          ¬ (template.shape.size ≠ 0 ∧ base + template.shape.size < Word.limit ∧
            ∀ e ∈ p.index.toList, ¬ e.Meets base template.shape.size)))) := by
  apply ensures_mono _ _ _ _ _ _ (allocate_settles p host id template sound)
  · intro grant q done
    obtain ⟨base, swap, index, readies, opened, indexSound, listed, rfl, rfl⟩ := done
    exact .intro base swap index readies.placed indexSound listed (affordable_of_fits p template readies.fits)
      (opens_of_opened host template _ _ swap opened)
  · intro halt q failed
    obtain ⟨rfl, ⟨failure, rfl, refuses⟩ | ⟨base, why, rfl, readies, taken⟩⟩ := failed
    · exact ⟨rfl, Or.inl ⟨failure, rfl, refusal_of_refuses q host template failure refuses⟩⟩
    · exact ⟨rfl, Or.inr ⟨base, why, rfl, readies.placed, taken⟩⟩

theorem fresh_object_sound (base : Nat) (swap : Option SwapStore) (used : List Span)
    (opens : Opens host used template swap) :
    (freshObject id template base swap).Sound := by
  refine ⟨rfl, rfl, rfl, fun page header => ?_, fun s same => (opens.sound s same).1, fun writable body => ?_⟩
  · have front : 0 ≤ page ∧ page < 0 + template.shape.headerPadded / Page.size :=
      ⟨Nat.zero_le _, (Nat.zero_add _).symm ▸ header⟩
    simp only [freshObject, SparseBytes.present_zero, front, and_self, decide_true, Bool.true_or]
  · have body' : template.shape.bodyLen ≠ 0 := body
    have writable' : template.readOnly = false := writable
    show swap.isSome = true
    rw [opens.given, writable']
    simpa using body'

theorem fresh_object_has_body (base k : Nat) (swap : Option SwapStore) :
    (freshObject id template base swap).hasBody k = false := by
  have behind : ¬ (template.shape.headerPadded + k) / Page.size < 0 + template.shape.headerPadded / Page.size := by
    rw [template.shape.body_page, Nat.zero_add]
    exact Nat.not_lt.mpr (Nat.le_add_right _ _)
  simp only [Managed.hasBody, freshObject, Mapping.isPresent, SparseBytes.present_zero, SparseBytes.present_empty]
  simpa using behind

theorem ledger_allocated (grant : Grant) (q : Pager) (ledger : Ledger p) (unknown : ∀ x ∈ p.objects, x.id ≠ id)
    (allocated : Allocated p host id template grant q) : Ledger q := by
  obtain ⟨base, swap, index, placed, sound, listed, affordable, opens⟩ := allocated
  have kept : (p.objects.filter fun x => x.id ≠ id) = p.objects :=
    List.filter_eq_self.mpr fun x member => decide_eq_true (unknown x member)
  have objects : (p.grown (freshObject id template base swap) index).objects =
      freshObject id template base swap :: p.objects := congrArg (_ :: ·) kept
  have none : ∀ i, ¬ p.Resident id i := by
    intro i given
    obtain ⟨r, isLive, key⟩ := given
    obtain ⟨x, member, xOf⟩ := ledger.owned r isLive
    exact unknown x member (xOf.owner.symm.trans (congrArg Prod.fst key))
  refine {
    marks := ledger.marks, index := sound, indexed := fun e => ?_, ids := ?_, sound := fun x member => ?_
    affordable := fun x member => ?_, watched := fun x member => ?_, remains := ledger.remains
    queue := ledger.queue, distinct := ledger.distinct, owned := fun r isLive => ?_
    present := fun x member k body => ?_, total := ledger.total, published := ledger.published, peak := ledger.peak }
  · show e ∈ index.toList ↔ _
    rw [listed.mem_iff, List.mem_cons, ledger.indexed, objects]
    simp only [List.mem_cons, exists_eq_or_imp]
    exact or_congr_left eq_comm
  · rw [objects, List.map_cons, List.nodup_cons]
    refine ⟨fun member => ?_, ledger.ids⟩
    obtain ⟨x, xMember, same⟩ := List.mem_map.mp member
    exact unknown x xMember same
  · rw [objects] at member
    rcases List.mem_cons.mp member with rfl | member
    · exact fresh_object_sound host id template base swap _ opens
    · exact ledger.sound x member
  · rw [objects] at member
    rcases List.mem_cons.mp member with rfl | member
    · exact affordable
    · exact ledger.affordable x member
  · rw [objects] at member
    rcases List.mem_cons.mp member with rfl | member
    · exact List.mem_cons_self
    · exact List.mem_cons_of_mem _ (ledger.watched x member)
  · obtain ⟨x, member, xOf⟩ := ledger.owned r isLive
    exact ⟨x, objects ▸ List.mem_cons_of_mem _ member, xOf⟩
  · rw [objects] at member
    show _ ↔ p.Resident x.id _
    rcases List.mem_cons.mp member with rfl | member
    · rw [fresh_object_has_body]
      exact ⟨fun impossible => (by cases impossible), fun resident => absurd resident (none _)⟩
    · exact ledger.present x member k body

theorem free_unknown_ensures (unknown : p.object? id = none) :
    Ensures (free id) p (fun _ _ => False) (fun halt q => q = p ∧ halt = .failed (.unknownObject id.number)) := by
  rw [free]
  simp only [ensures_bind, ensures_get, unknown, ensures_fail]
  exact ⟨trivial, trivial⟩

theorem reset_unknown_ensures (unknown : p.object? id = none) :
    Ensures (reset host id) p (fun _ _ => False) (fun halt q => q = p ∧ halt = .failed (.unknownObject id.number)) := by
  rw [reset]
  simp only [ensures_bind, ensures_get, unknown, ensures_fail]
  exact ⟨trivial, trivial⟩

end

theorem ledger_start (settings : Settings) (p : Pager) (started : start settings = .ok p) : Ledger p := by
  simp only [start, Word.bind_eq_ok] at started
  obtain ⟨_, valid, queue, made, _, _, staging, _, same⟩ := started
  obtain ⟨-, rfl⟩ := (CircularQueue.try_new_eq_ok _ _ _).mp (Halt.of_word_eq_ok.mp made)
  cases same
  have marks : settings.low < settings.high := by
    by_contra crossed
    simp [Settings.validate, Settings.checkLimits, Nat.not_lt.mp crossed, Halt.ofFailure, Except.mapError] at valid
  exact {
    marks, index := AddressMap.sound_empty, indexed := by simp [AddressMap.empty, AddressMap.toList]
    ids := List.nodup_nil, sound := by simp, affordable := by simp, watched := by simp, remains := rfl
    queue := CircularQueue.well_formed_with_capacity _, distinct := List.nodup_nil
    owned := by simp [live, CircularQueue.to_list_with_capacity]
    present := by simp, total := rfl, published := rfl, peak := ⟨Nat.le_refl _, Nat.zero_le _⟩ }

theorem settings_start (settings : Settings) (p : Pager) (started : start settings = .ok p) : p.settings = settings := by
  simp only [start, Word.bind_eq_ok] at started
  obtain ⟨_, _, _, _, _, _, staging, _, same⟩ := started
  cases same
  rfl

theorem objects_start (settings : Settings) (p : Pager) (started : start settings = .ok p) : p.objects = [] := by
  simp only [start, Word.bind_eq_ok] at started
  obtain ⟨_, _, _, _, _, _, staging, _, same⟩ := started
  cases same
  rfl

theorem journal_start (settings : Settings) (p : Pager) (started : start settings = .ok p) : p.journal = [] := by
  simp only [start, Word.bind_eq_ok] at started
  obtain ⟨_, _, _, _, _, _, staging, _, same⟩ := started
  cases same
  rfl

end Pager

end DemandPaging
