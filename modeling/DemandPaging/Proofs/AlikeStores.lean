import DemandPaging.Proofs.Allocating
import DemandPaging.Proofs.TwoRuns

set_option autoImplicit false

namespace DemandPaging

variable [Platform]

namespace SwapStore

-- The stores have the same bits, and the same bytes of every chunk that is saved.
structure Alike (shape : Shape) (s t : SwapStore) : Prop where
  first : s.Sound shape
  second : t.Sound shape
  span : t.map.span = s.map.span
  bits : ∀ i, i < shape.chunks → t.saved i = s.saved i
  copies : ∀ d, d < shape.bodyReserved → s.saved (d / shape.chunkLen) = true → t.payload d = s.payload d

section

variable (shape : Shape) (s t : SwapStore)

theorem alike_refl (sound : s.Sound shape) : s.Alike shape s := ⟨sound, sound, rfl, fun _ _ => rfl, fun _ _ _ => rfl⟩

variable (alike : Alike shape s t) (i : Nat) (inside : i < shape.chunks)

include alike inside

theorem is_dirty_alike : t.isDirty i = s.isDirty i := by
  rw [t.is_dirty_saved i (alike.second.chunks ▸ inside), s.is_dirty_saved i (alike.first.chunks ▸ inside), alike.bits i inside]

theorem load_alike (saved : s.saved i = true) :
    t.load (shape.piece i).bodyOffset (shape.piece i).fillLen = s.load (shape.piece i).bodyOffset (shape.piece i).fillLen := by
  have ends := shape.piece_end_le i inside
  have front : t.bitmapLen = s.bitmapLen := alike.second.bitmap.trans alike.first.bitmap.symm
  rw [t.load_payload shape _ _ alike.second (alike.second.payload.symm ▸ ends),
    s.load_payload shape _ _ alike.first (alike.first.payload.symm ▸ ends)]
  rw [front]
  congr 1
  apply SparseBytes.slice_congr
  intro j within
  obtain ⟨body, own⟩ := shape.piece_byte i j inside within
  have copy := alike.copies ((shape.piece i).bodyOffset + j) body (own.symm ▸ saved)
  rw [payload, payload, front] at copy
  rw [Nat.add_assoc]
  exact copy

theorem takes_alike (bytes : Bytes) (size : bytes.size = (shape.piece i).fillLen) (later other : SwapStore)
    (takes : s.Takes shape i bytes later) (otherTakes : t.Takes shape i bytes other) : Alike shape later other := by
  refine ⟨takes.sound, otherTakes.sound, ?_, fun j chunk => ?_, fun d body saved => ?_⟩
  · rw [takes.span, otherTakes.span, alike.span]
  · rw [takes.saved j chunk, otherTakes.saved j chunk, alike.bits j chunk]
  · rw [takes.payload, otherTakes.payload]
    by_cases own : (shape.piece i).bodyOffset ≤ d ∧ d < (shape.piece i).bodyOffset + bytes.size
    · rw [if_pos own, if_pos own]
    · rw [if_neg own, if_neg own]
      have chunk := shape.chunk_of_offset_lt d body
      have other : d / shape.chunkLen ≠ i := fun same => own (size ▸ (shape.piece_of_offset d i inside).mpr ⟨body, same⟩)
      rw [takes.saved _ chunk, decide_eq_false other, Bool.false_or] at saved
      exact alike.copies d body saved

omit alike inside

theorem alike_of_unsaved (first : s.Sound shape) (second : t.Sound shape) (span : t.map.span = s.map.span)
    (none : ∀ i, i < shape.chunks → s.saved i = false) (unsaved : ∀ i, i < shape.chunks → t.saved i = false) :
    Alike shape s t := by
  refine ⟨first, second, span, fun i inside => ?_, fun d body saved => ?_⟩
  · rw [none i inside, unsaved i inside]
  · rw [none _ (shape.chunk_of_offset_lt d body)] at saved
    cases saved

end

end SwapStore

namespace Managed

structure Alike (o x : Managed) : Prop where
  rest : x = { o with swap := x.swap }
  stores : x.swap.isSome = o.swap.isSome
  alike : ∀ s t, o.swap = some s → x.swap = some t → s.Alike o.shape t

section

variable (o x : Managed)

theorem alike_refl (stores : ∀ s, o.swap = some s → s.Sound o.shape) : o.Alike o := by
  refine ⟨rfl, rfl, fun s t store same => ?_⟩
  cases store.symm.trans same
  exact s.alike_refl o.shape (stores s store)

variable (alike : o.Alike x)

include alike

theorem alike_same {α : Type} (f : Managed → α) (blind : ∀ swap, f { o with swap } = f o) : f x = f o := by
  rw [alike.rest]
  exact blind x.swap

theorem alike_becomes : o.Becomes x := by
  refine ⟨o.alike_same x alike Managed.id fun _ => rfl, o.alike_same x alike Managed.template fun _ => rfl,
    o.alike_same x alike (fun y => y.mapping.base) fun _ => rfl, o.alike_same x alike (fun y => y.mapping.len) fun _ => rfl, ?_⟩
  cases store : o.swap with
  | none =>
      have none : x.swap = none := by
        rw [← Option.not_isSome_iff_eq_none, alike.stores, store]
        exact Bool.false_ne_true
      rw [none]
  | some s =>
      have there := alike.stores
      rw [store] at there
      obtain ⟨t, same⟩ := Option.isSome_iff_exists.mp there
      rw [same, Option.map_some, Option.map_some, (alike.alike s t store same).span]

theorem alike_sound (sound : o.Sound) : x.Sound := by
  have shape := o.becomes_shape x (o.alike_becomes x alike)
  have mapping : x.mapping = o.mapping := o.alike_same x alike Managed.mapping fun _ => rfl
  refine ⟨?_, ?_, ?_, fun page header => ?_, fun t same => ?_, fun writable body => ?_⟩
  · rw [shape, ← sound.layout]
    exact o.alike_same x alike Managed.layout fun _ => rfl
  · rw [shape, mapping, sound.len]
  · rw [mapping, sound.own]
  · rw [mapping]
    exact sound.header page (shape ▸ header)
  · have there := alike.stores
    rw [same] at there
    obtain ⟨s, store⟩ := Option.isSome_iff_exists.mp there.symm
    rw [shape]
    exact (alike.alike s t store same).second
  · rw [alike.stores]
    have template : x.template = o.template := o.alike_same x alike Managed.template fun _ => rfl
    exact sound.writable (template ▸ writable) (shape ▸ body)

theorem alike_apart (f : Managed → Managed) (swap : ∀ o swap, f { o with swap } = { f o with swap })
    (kept : ∀ o, (f o).swap = o.swap) (template : ∀ o, (f o).template = o.template) : (f o).Alike (f x) := by
  refine ⟨?_, ?_, ?_⟩
  · rw [kept x, ← swap, ← alike.rest]
  · rw [kept x, kept o]
    exact alike.stores
  · rw [kept x, kept o, shape, template o]
    exact alike.alike

theorem stored_alike (i : Nat) (inside : i < o.shape.chunks) (bytes : Bytes) (size : bytes.size = (o.shape.piece i).fillLen)
    (s t later other : SwapStore) (store : o.swap = some s) (otherStore : x.swap = some t)
    (takes : s.Takes o.shape i bytes later) (otherTakes : t.Takes o.shape i bytes other) :
    ({ o with swap := some later } : Managed).Alike { x with swap := some other } := by
  refine ⟨?_, rfl, ?_⟩
  · have rest := alike.rest
    generalize x.swap = swap at rest
    subst rest
    rfl
  · intro first second same otherSame
    obtain rfl : later = first := Option.some.inj same
    obtain rfl : other = second := Option.some.inj otherSame
    exact SwapStore.takes_alike o.shape s t (alike.alike s t store otherStore) i inside bytes size later other takes otherTakes

end

end Managed

namespace Pager

structure Alike (p q : Pager) : Prop where
  rest : q = { p with objects := q.objects }
  objects : List.Forall₂ Managed.Alike p.objects q.objects

section

variable (p q : Pager)

theorem alike_refl (sound : ∀ o ∈ p.objects, o.Sound) : p.Alike p :=
  ⟨rfl, List.forall₂_same.mpr fun o member => o.alike_refl (sound o member).store⟩

variable (alike : p.Alike q)

include alike

theorem read_alike {α : Type} (f : Pager → α) (blind : ∀ objects, f { p with objects } = f p) : f q = f p := by
  rw [alike.rest]
  exact blind q.objects

theorem map_alike {α : Type} (f : Managed → α) (same : ∀ o x, o.Alike x → f x = f o) :
    q.objects.map f = p.objects.map f := by
  have each : List.Forall₂ (· = ·) (p.objects.map f) (q.objects.map f) := by
    rw [List.forall₂_map_left_iff, List.forall₂_map_right_iff]
    exact alike.objects.imp fun o x own => (same o x own).symm
  rw [List.forall₂_eq_eq_eq] at each
  exact each.symm

theorem mem_alike (x : Managed) (member : x ∈ q.objects) : ∃ o ∈ p.objects, o.Alike x := by
  obtain ⟨⟨i, inside⟩, rfl⟩ := List.get_of_mem member
  have own := alike.objects.get (alike.objects.length_eq ▸ inside) inside
  exact ⟨_, List.get_mem _ _, own⟩

theorem mem_alike_of (o : Managed) (member : o ∈ p.objects) : ∃ x ∈ q.objects, o.Alike x := by
  obtain ⟨⟨i, inside⟩, rfl⟩ := List.get_of_mem member
  have own := alike.objects.get inside (alike.objects.length_eq ▸ inside)
  exact ⟨_, List.get_mem _ _, own⟩

theorem spans_alike : q.spans = p.spans := by
  rw [spans, spans, List.flatMap_def, List.flatMap_def]
  congr 1
  refine map_alike p q alike _ fun o x own => ?_
  rw [(o.alike_becomes x own).store, o.becomes_span x (o.alike_becomes x own)]

theorem ids_alike : q.objects.map Managed.id = p.objects.map Managed.id :=
  map_alike p q alike Managed.id fun o x own => (o.alike_becomes x own).id

theorem object_alike (id : ObjectId) : (p.object? id = none ∧ q.object? id = none) ∨
    ∃ o x, p.object? id = some o ∧ q.object? id = some x ∧ o.Alike x := by
  have objects := alike.objects
  rw [object?, object?]
  generalize p.objects = first at objects
  generalize q.objects = second at objects
  induction objects with
  | nil => exact Or.inl ⟨rfl, rfl⟩
  | @cons o x _ _ own _ ih =>
      have number : x.id = o.id := (o.alike_becomes x own).id
      rw [List.find?_cons, List.find?_cons, number]
      by_cases hit : o.id = id
      · rw [decide_eq_true hit]
        exact Or.inr ⟨o, x, rfl, rfl, own⟩
      · rw [decide_eq_false hit]
        exact ih

theorem ledger_alike (ledger : Ledger p) : Ledger q := by
  have queue : q.queue = p.queue := read_alike p q alike Pager.queue fun _ => rfl
  have settings : q.settings = p.settings := read_alike p q alike Pager.settings fun _ => rfl
  have index : q.index = p.index := read_alike p q alike Pager.index fun _ => rfl
  have resident : q.resident = p.resident := read_alike p q alike Pager.resident fun _ => rfl
  have counters : q.counters = p.counters := read_alike p q alike Pager.counters fun _ => rfl
  have entries : q.objects.map Managed.entry = p.objects.map Managed.entry :=
    map_alike p q alike Managed.entry fun o x own => o.becomes_entry x (o.alike_becomes x own)
  have live : q.live = p.live := by rw [live, live, queue]
  refine {
    marks := settings ▸ ledger.marks, index := index ▸ ledger.index, indexed := fun e => ?_
    ids := ids_alike p q alike ▸ ledger.ids, sound := fun x member => ?_, affordable := fun x member => ?_
    watched := fun x member => ?_, remains := ?_, queue := queue ▸ ledger.queue, distinct := live ▸ ledger.distinct
    owned := fun r isLive => ?_, present := fun x member k body => ?_, total := ?_, published := ?_, peak := ?_ }
  · rw [index, ledger.indexed, ← List.mem_map, ← List.mem_map, entries]
  · obtain ⟨o, oMember, own⟩ := mem_alike p q alike x member
    exact o.alike_sound x own (ledger.sound o oMember)
  · obtain ⟨o, oMember, own⟩ := mem_alike p q alike x member
    rw [o.becomes_shape x (o.alike_becomes x own), settings]
    exact ledger.affordable o oMember
  · obtain ⟨o, oMember, own⟩ := mem_alike p q alike x member
    rw [o.becomes_span x (o.alike_becomes x own), read_alike p q alike Pager.watched fun _ => rfl]
    exact ledger.watched o oMember
  · rw [read_alike p q alike Pager.remains fun _ => rfl]
    exact ledger.remains
  · obtain ⟨o, oMember, of⟩ := ledger.owned r (live ▸ isLive)
    obtain ⟨x, member, own⟩ := mem_alike_of p q alike o oMember
    exact ⟨x, member, r.of_becomes o x (o.alike_becomes x own) of⟩
  · obtain ⟨o, oMember, own⟩ := mem_alike p q alike x member
    have becomes := o.alike_becomes x own
    have shape := o.becomes_shape x becomes
    have pages : x.hasBody k = o.hasBody k := o.alike_same x own (fun y => y.hasBody k) fun _ => rfl
    rw [shape] at body ⊢
    rw [pages, becomes.id, Resident, live]
    exact ledger.present o oMember k body
  · rw [resident, queuedBytes, queue]
    exact ledger.total
  · rw [counters, resident]
    exact ledger.published
  · rw [counters, resident, settings]
    exact ledger.peak

end

section

variable (p q : Pager) (alike : p.Alike q)

include alike

theorem modify_rest_alike (f : Pager → Pager) (apart : ∀ (p : Pager) (objects : List Managed),
    f { p with objects } = { f p with objects }) (kept : ∀ p : Pager, (f p).objects = p.objects) : (f p).Alike (f q) := by
  refine ⟨?_, ?_⟩
  · rw [kept q, ← apart, ← alike.rest]
  · rw [kept p, kept q]
    exact alike.objects

theorem map_objects_alike (f g : Managed → Managed) (each : ∀ o x, o.Alike x → (f o).Alike (g x)) :
    ({ p with objects := p.objects.map f } : Pager).Alike { q with objects := q.objects.map g } := by
  refine ⟨?_, ?_⟩
  · rw [alike.rest]
  · rw [List.forall₂_map_left_iff, List.forall₂_map_right_iff]
    exact alike.objects.imp each

theorem modify_object_alike (id : ObjectId) (f g : Managed → Managed) (each : ∀ o x, o.Alike x → (f o).Alike (g x)) :
    (p.modifyObject id f).Alike (q.modifyObject id g) := by
  refine map_objects_alike p q alike _ _ fun o x own => ?_
  rw [(o.alike_becomes x own).id]
  split
  · exact each o x own
  · exact own

end

theorem alikes_modify (f : Pager → Pager) (apart : ∀ (p : Pager) (objects : List Managed),
    f { p with objects } = { f p with objects }) (kept : ∀ p : Pager, (f p).objects = p.objects) :
    Agrees Alike (modify f : M Unit) :=
  agrees_modify _ f fun p q alike => modify_rest_alike p q alike f apart kept

theorem alikes_count (f : Counters → Counters) : Agrees Alike (count f) := alikes_modify _ (fun _ _ => rfl) fun _ => rfl

theorem alikes_record (event : Event) : Agrees Alike (record event) := alikes_modify _ (fun _ _ => rfl) fun _ => rfl

theorem alikes_set_resident (n : Nat) : Agrees Alike (setResident n) := alikes_modify _ (fun _ _ => rfl) fun _ => rfl

theorem alikes_give_back (len : Nat) : Agrees Alike (giveBack len) := by
  intro p q alike
  rw [giveBack]
  apply pairs_get
  rw [read_alike p q alike Pager.resident fun _ => rfl]
  apply pairs_ite
  · intro _
    refine pairs_set _ _ _ _ _ _ ?_
    exact ⟨by rw [alike.rest], alike.objects⟩
  · exact fun _ => pairs_breach _ _ _ _ _ alike

theorem alikes_check_totals : Agrees Alike checkTotals := by
  intro p q alike
  rw [checkTotals]
  apply pairs_get
  rw [read_alike p q alike Pager.queuedBytes fun _ => rfl, read_alike p q alike Pager.resident fun _ => rfl,
    read_alike p q alike Pager.settings fun _ => rfl]
  refine agrees_check _ _ _ _ (agrees_throw _ _) ?_ p q alike
  exact agrees_ite _ _ _ _ (agrees_throw _ _) (agrees_pure _ ())

theorem source_chunk_alike (o x : Managed) (i : Nat) (alike : o.Alike x) (inside : i < o.shape.chunks) :
    sourceChunk x (o.shape.piece i) = sourceChunk o (o.shape.piece i) := by
  have fill : fillChunk x (o.shape.piece i) = fillChunk o (o.shape.piece i) :=
    o.alike_same x alike (fun y => fillChunk y (o.shape.piece i)) fun _ => rfl
  cases store : o.swap with
  | none =>
      have none : x.swap = none := by
        rw [← Option.not_isSome_iff_eq_none, alike.stores, store]
        exact Bool.false_ne_true
      simp only [sourceChunk, store, none, pure_bind, fill]
  | some s =>
      have there := alike.stores
      rw [store] at there
      obtain ⟨t, other⟩ := Option.isSome_iff_exists.mp there
      have both := alike.alike s t store other
      have asked : s.isDirty (o.shape.piece i).index = .ok (s.saved i) := s.is_dirty_saved i (both.first.chunks ▸ inside)
      have same : t.isDirty (o.shape.piece i).index = .ok (s.saved i) :=
        (SwapStore.is_dirty_alike o.shape s t both i inside).trans asked
      have answered : attempt (.ok (s.saved i)) = pure (s.saved i) := rfl
      simp only [sourceChunk, store, other, asked, same, answered, pure_bind, fill]
      cases saved : s.saved i with
      | false => rfl
      | true =>
          have load := SwapStore.load_alike o.shape s t both i inside saved
          have number : x.id = o.id := (o.alike_becomes x alike).id
          simp only [if_true, restoreChunk, load, number]

theorem alikes_modify_object (id : ObjectId) (f : Managed → Managed) (each : ∀ o x, o.Alike x → (f o).Alike (f x)) :
    Agrees Alike (modify (·.modifyObject id f)) :=
  agrees_modify _ _ fun p q alike => modify_object_alike p q alike id f f each

theorem alikes_put_mapping (id : ObjectId) (mapping : Mapping) :
    Agrees Alike (modify (·.modifyObject id fun o => { o with mapping })) :=
  alikes_modify_object id _ fun o x own =>
    o.alike_apart x own (fun y => { y with mapping }) (fun _ _ => rfl) (fun _ => rfl) fun _ => rfl

theorem alikes_fill_chunk (o : Managed) (chunk : Chunk) : Agrees Alike (fillChunk o chunk) := by
  rw [fillChunk]
  cases o.template.filler with
  | none => exact agrees_fail _ _
  | some filler =>
      intro p q alike
      apply pairs_get
      rw [read_alike p q alike Pager.staging fun _ => rfl]
      refine agrees_bind _ _ _ (alikes_record _) (fun _ => ?_) p q alike
      refine agrees_bind _ _ _ (alikes_modify_object o.id _ fun o x own =>
        o.alike_apart x own (fun y => { y with calls := y.calls + 1 }) (fun _ _ => rfl) (fun _ => rfl) fun _ => rfl) fun _ => ?_
      cases filler _ o.calls with
      | failed code => exact agrees_fail _ _
      | brokeOff => exact agrees_fail _ _
      | filled byte => exact agrees_bind _ _ _ (alikes_count _) fun _ => agrees_pure _ _

theorem alikes_source_chunk (o : Managed) (chunk : Chunk) : Agrees Alike (sourceChunk o chunk) := by
  have placed : ∀ bytes : Bytes, Agrees Alike (do
      modify fun p => { p with staging := p.staging.overwrite bytes }
      pure bytes) := fun bytes =>
    agrees_bind _ _ _ (alikes_modify _ (fun _ _ => rfl) fun _ => rfl) fun _ => agrees_pure _ bytes
  have filled : Agrees Alike (do
      let bytes ← fillChunk o chunk
      modify fun p => { p with staging := p.staging.overwrite bytes }
      pure bytes) := agrees_bind _ _ _ (alikes_fill_chunk o chunk) placed
  have restored : ∀ swap : SwapStore, Agrees Alike (do
      let bytes ← restoreChunk o swap chunk
      modify fun p => { p with staging := p.staging.overwrite bytes }
      pure bytes) := by
    intro swap
    refine agrees_bind _ _ _ ?_ placed
    refine agrees_bind _ _ _ (agrees_attempt _ _) fun bytes => ?_
    refine agrees_bind _ _ _ (alikes_count _) fun _ => ?_
    exact agrees_bind _ _ _ (alikes_record _) fun _ => agrees_pure _ bytes
  intro p q alike
  rw [sourceChunk]
  apply pairs_get
  rw [read_alike p q alike Pager.staging fun _ => rfl]
  refine agrees_bind _ _ _ (agrees_word _ _) (fun staging => ?_) p q alike
  refine agrees_bind _ _ _ (alikes_modify _ (fun _ _ => rfl) fun _ => rfl) fun _ => ?_
  cases o.swap with
  | none => exact agrees_bind _ _ _ (agrees_pure _ none) fun dirty => dirty.rec filled restored
  | some swap =>
      refine agrees_bind _ _ _ (agrees_attempt _ _) fun isDirty => ?_
      exact agrees_bind _ _ _ (agrees_pure _ _) fun dirty => dirty.rec filled restored

theorem alikes_unrecord (address : Nat) : Agrees Alike (unrecord address) := by
  intro p q alike
  rw [unrecord]
  apply pairs_get
  rw [read_alike p q alike Pager.queue fun _ => rfl]
  cases p.queue.popNewest with
  | none => exact pairs_breach _ _ _ _ _ alike
  | some popped =>
      obtain ⟨newest, queue⟩ := popped
      have out : ({ p with queue } : Pager).Alike { q with queue } := ⟨by rw [alike.rest], alike.objects⟩
      refine pairs_bind _ _ _ _ _ _ _ _ (fun _ => Alike) (pairs_set _ _ _ _ _ _ out) fun _ => ?_
      refine agrees_ite _ _ _ _ ?_ (agrees_breach _ _)
      refine agrees_bind _ _ _ (alikes_give_back _) fun _ => ?_
      refine agrees_read _ Pager.resident (fun n => do setResident n; checkTotals) (fun p q alike =>
        read_alike p q alike Pager.resident fun _ => rfl) fun n => ?_
      exact agrees_bind _ _ _ (alikes_set_resident n) fun _ => alikes_check_totals

theorem alikes_ask (host : Host) (call : SystemCall) : Agrees Alike (ask host call) := agrees_attempt _ _

theorem alikes_install_chunk (host : Host) (id : ObjectId) (base : Nat) (layout : Layout) (chunk : Chunk) (bytes : Bytes) :
    Agrees Alike (installChunk host id base layout chunk bytes) := by
  rw [installChunk]
  refine agrees_bind _ _ _ (agrees_word _ _) fun offset => ?_
  refine agrees_bind _ _ _ (agrees_word _ _) fun address => ?_
  intro p q alike
  apply pairs_get
  rw [read_alike p q alike Pager.queue fun _ => rfl, read_alike p q alike Pager.resident fun _ => rfl]
  cases p.queue.push _ true with
  | error why => exact pairs_breach _ _ _ _ _ alike
  | ok queue =>
      have put : ({ p with queue } : Pager).Alike { q with queue, resident := p.resident } :=
        ⟨by rw [alike.rest], alike.objects⟩
      refine pairs_bind _ _ _ _ _ _ _ _ (fun _ => Alike) (pairs_set _ _ _ _ _ _ put) fun _ => ?_
      refine agrees_bind _ _ _ (agrees_word _ _) fun resident => ?_
      refine agrees_bind _ _ _ (alikes_set_resident resident) fun _ => ?_
      intro p q alike
      apply pairs_get
      rcases object_alike p q alike id with ⟨first, second⟩ | ⟨o, x, first, second, own⟩
      · rw [first, second]
        exact pairs_breach _ _ _ _ _ alike
      · have mapping : x.mapping = o.mapping := o.alike_same x own Managed.mapping fun _ => rfl
        rw [first, second]
        simp only [mapping]
        refine agrees_bind _ _ _ (alikes_put_mapping id _) (fun _ => ?_) p q alike
        cases (o.mapping.install host offset bytes).2 with
        | whole => exact agrees_bind _ _ _ (alikes_record _) fun _ => alikes_check_totals
        | present => exact agrees_bind _ _ _ (alikes_unrecord address) fun _ => alikes_ask host _
        | refused cause => exact agrees_bind _ _ _ (alikes_unrecord address) fun _ => agrees_fail _ _

end Pager

end DemandPaging
