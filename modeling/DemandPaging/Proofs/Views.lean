import DemandPaging.Proofs.Bookkeeping

set_option autoImplicit false

namespace DemandPaging

variable [Platform]

namespace Template

-- The filler writes these bytes of a body, whenever and for whichever chunk it is asked.
def Fills (t : Template) (value : Nat → UInt8) : Prop :=
  ∀ filler i calls byte, t.filler = some filler → i < t.shape.chunks →
    filler { start := (t.shape.piece i).start, stop := (t.shape.piece i).stop, stride := t.shape.stride
             client := t.client } calls = .filled byte →
    ∀ k, k < (t.shape.piece i).dataLen → byte k = some (value ((t.shape.piece i).bodyOffset + k))

-- A body that nobody has written to: what the filler writes, and zeros behind it in the last page.
def pristine (t : Template) (value : Nat → UInt8) (d : Nat) : UInt8 := if d < t.shape.bodyLen then value d else 0

end Template

namespace Managed

def source (o : Managed) (value : Nat → UInt8) (d : Nat) : UInt8 :=
  match o.swap with
  | some s => if s.saved (d / o.shape.chunkLen) then s.payload d else o.template.pristine value d
  | none => o.template.pristine value d

def view (o : Managed) (value : Nat → UInt8) (k : Nat) : UInt8 :=
  if o.mapping.isPresent k then o.mapping.bytes.byte k else o.source value (k - o.shape.headerPadded)

structure Brought (o : Managed) (value : Nat → UInt8) (i : Nat) (bytes : Bytes) : Prop where
  size : bytes.size = (o.shape.piece i).fillLen
  bytes : ∀ j, j < (o.shape.piece i).fillLen → bytes.getD j 0 = o.source value ((o.shape.piece i).bodyOffset + j)

section

variable (o later : Managed) (value : Nat → UInt8)

theorem source_unsaved (d : Nat) (unsaved : o.isSaved (d / o.shape.chunkLen) = false) :
    o.source value d = o.template.pristine value d := by
  cases store : o.swap with
  | none => simp only [source, store]
  | some s =>
      simp only [isSaved, store, Option.any_some] at unsaved
      simp only [source, store, unsaved, Bool.false_eq_true, if_false]

theorem source_saved (s : SwapStore) (d : Nat) (store : o.swap = some s)
    (saved : s.saved (d / o.shape.chunkLen) = true) : o.source value d = s.payload d := by
  simp only [source, store, saved, if_true]

theorem source_congr (d : Nat) (template : later.template = o.template) (swap : later.swap = o.swap) :
    later.source value d = o.source value d := by
  simp only [source, shape, template, swap]

theorem view_header (k : Nat) (sound : o.Sound) (header : k < o.shape.headerPadded) :
    o.view value k = o.mapping.bytes.byte k := by
  have present : o.mapping.isPresent k = true := sound.header _ (o.shape.header_page k header)
  rw [view, if_pos present]

theorem view_body (d : Nat) : o.view value (o.shape.headerPadded + d) =
    if o.hasBody d then o.mapping.bytes.byte (o.shape.headerPadded + d) else o.source value d := by
  rw [view, Nat.add_sub_cancel_left]
  rfl

theorem view_congr (other : Nat → UInt8) (k : Nat) (inside : k < o.shape.size)
    (header : k < o.shape.headerPadded → later.view value k = other k)
    (body : ∀ d, d < o.shape.bodyReserved → k = o.shape.headerPadded + d →
      later.view value (o.shape.headerPadded + d) = other (o.shape.headerPadded + d)) :
    later.view value k = other k := by
  by_cases front : k < o.shape.headerPadded
  · exact header front
  · obtain ⟨d, place⟩ := Nat.exists_eq_add_of_le (Nat.le_of_not_lt front)
    subst place
    exact body d (Nat.lt_of_add_lt_add_left inside) rfl

theorem contents_get (i d : Nat) (chunk : i < o.shape.chunks) (body : d < o.shape.bodyReserved)
    (inside : d / o.shape.chunkLen = i) :
    (o.contents i).getD (d - (o.shape.piece i).bodyOffset) 0 = o.mapping.bytes.byte (o.shape.headerPadded + d) := by
  obtain ⟨low, high⟩ := (o.shape.piece_of_offset d i chunk).mpr ⟨body, inside⟩
  have place : o.shape.headerPadded + (o.shape.piece i).bodyOffset + (d - (o.shape.piece i).bodyOffset) =
      o.shape.headerPadded + d := by omega
  rw [contents, SparseBytes.getD_slice _ _ _ _ (by omega), place]

theorem brought_get (i d : Nat) (bytes : Bytes) (brought : o.Brought value i bytes) (chunk : i < o.shape.chunks)
    (body : d < o.shape.bodyReserved) (inside : d / o.shape.chunkLen = i) :
    bytes.getD (d - (o.shape.piece i).bodyOffset) 0 = o.source value d := by
  obtain ⟨low, high⟩ := (o.shape.piece_of_offset d i chunk).mpr ⟨body, inside⟩
  have place : (o.shape.piece i).bodyOffset + (d - (o.shape.piece i).bodyOffset) = d := by omega
  rw [brought.bytes _ (by omega), place]

theorem brought_congr (i : Nat) (bytes : Bytes) (chunk : i < o.shape.chunks) (shape : later.shape = o.shape)
    (same : ∀ d, d < o.shape.bodyReserved → d / o.shape.chunkLen = i → later.source value d = o.source value d)
    (brought : o.Brought value i bytes) : later.Brought value i bytes := by
  refine ⟨by rw [shape, brought.size], fun j inside => ?_⟩
  rw [shape] at inside ⊢
  obtain ⟨body, own⟩ := o.shape.piece_byte i j chunk inside
  rw [brought.bytes j inside, same _ body own]

end

section

variable (o later : Managed) (value : Nat → UInt8) (r : Residency) (saved : Bool)

theorem source_evicted (d : Nat) (evicted : o.Evicted r saved later) (chunk : r.chunk < o.shape.chunks)
    (body : d < o.shape.bodyReserved) (other : d / o.shape.chunkLen ≠ r.chunk) :
    later.source value d = o.source value d := by
  have becomes := o.evicted_becomes later r saved evicted
  cases saved with
  | false => exact o.source_congr later value d becomes.template (evicted.kept rfl).1
  | true =>
      obtain ⟨-, s, marked, before, after, takes⟩ := evicted.stored rfl
      have own := o.shape.chunk_of_offset_lt d body
      have bit : marked.saved (d / o.shape.chunkLen) = s.saved (d / o.shape.chunkLen) := by
        rw [takes.saved _ own, decide_eq_false other, Bool.false_or]
      have payload : marked.payload d = s.payload d := by
        rw [takes.payload, if_neg]
        rw [o.size_contents, o.shape.piece_of_offset d r.chunk chunk]
        exact fun inside => other inside.2
      simp only [source, before, after, shape, becomes.template, bit, payload]

theorem source_evicted_own (d : Nat) (evicted : o.Evicted r saved later) (chunk : r.chunk < o.shape.chunks)
    (body : d < o.shape.bodyReserved) (own : d / o.shape.chunkLen = r.chunk)
    (clean : saved = false → o.Brought value r.chunk (o.contents r.chunk)) :
    later.source value d = o.mapping.bytes.byte (o.shape.headerPadded + d) := by
  have becomes := o.evicted_becomes later r saved evicted
  have contents := o.contents_get r.chunk d chunk body own
  cases saved with
  | false =>
      rw [o.source_congr later value d becomes.template (evicted.kept rfl).1, ← contents]
      exact (o.brought_get value r.chunk d _ (clean rfl) chunk body own).symm
  | true =>
      obtain ⟨-, s, marked, before, after, takes⟩ := evicted.stored rfl
      have shape := o.becomes_shape later becomes
      have bit : marked.saved (d / later.shape.chunkLen) = true := by
        rw [shape, own, takes.saved _ chunk, decide_eq_true rfl, Bool.true_or]
      have inside := (o.shape.piece_of_offset d r.chunk chunk).mpr ⟨body, own⟩
      rw [later.source_saved value marked d after bit, takes.payload, o.size_contents, if_pos inside]
      exact contents

theorem byte_evicted (d : Nat) (evicted : o.Evicted r saved later) (chunk : r.chunk < o.shape.chunks)
    (body : d < o.shape.bodyReserved) (other : d / o.shape.chunkLen ≠ r.chunk) :
    later.mapping.bytes.byte (o.shape.headerPadded + d) = o.mapping.bytes.byte (o.shape.headerPadded + d) := by
  rw [evicted.rest]
  simp only [without, SparseBytes.byte_drop]
  rw [if_neg]
  exact fun dropped => other ((o.shape.piece_pages r.chunk d chunk body).mp dropped)

theorem view_evicted (k : Nat) (evicted : o.Evicted r saved later) (sound : o.Sound) (chunk : r.chunk < o.shape.chunks)
    (resident : ∀ d, d < o.shape.bodyReserved → d / o.shape.chunkLen = r.chunk → o.hasBody d = true)
    (clean : saved = false → o.Brought value r.chunk (o.contents r.chunk)) (inside : k < o.shape.size) :
    later.view value k = o.view value k := by
  have shape := o.becomes_shape later (o.evicted_becomes later r saved evicted)
  refine o.view_congr later value (o.view value) k inside (fun header => ?_) fun d body _ => ?_
  · have laterSound := o.evicted_sound later r saved evicted sound
    rw [later.view_header value k laterSound (shape ▸ header), o.view_header value k sound header, evicted.rest]
    simp only [without, SparseBytes.byte_drop]
    rw [if_neg]
    exact fun dropped => o.shape.piece_behind_header r.chunk _ (o.shape.header_page k header) dropped.1
  · have after := later.view_body value d
    rw [shape, o.evicted_has_body later r saved evicted d chunk body] at after
    rw [after, o.view_body value d]
    by_cases own : d / o.shape.chunkLen = r.chunk
    · rw [decide_eq_true own, resident d body own]
      exact o.source_evicted_own later value r saved d evicted chunk body own clean
    · rw [decide_eq_false own, Bool.not_false, Bool.true_and,
        o.byte_evicted later r saved d evicted chunk body own, o.source_evicted later value r saved d evicted chunk body own]

theorem contents_evicted (i : Nat) (evicted : o.Evicted r saved later) (chunk : r.chunk < o.shape.chunks)
    (inside : i < o.shape.chunks) (other : i ≠ r.chunk) : later.contents i = o.contents i := by
  have shape := o.becomes_shape later (o.evicted_becomes later r saved evicted)
  rw [contents, contents, shape]
  apply SparseBytes.slice_congr
  intro j within
  obtain ⟨body, own⟩ := o.shape.piece_byte i j inside within
  rw [Nat.add_assoc]
  exact o.byte_evicted later r saved _ evicted chunk body (own.symm ▸ other)

end

section

variable (o : Managed) (value : Nat → UInt8) (i : Nat) (bytes : Bytes)

theorem byte_with_chunk (d : Nat) (chunk : i < o.shape.chunks) (absent : o.lacks i)
    (size : bytes.size = (o.shape.piece i).fillLen) (body : d < o.shape.bodyReserved) :
    (o.withChunk i bytes).mapping.bytes.byte (o.shape.headerPadded + d) =
      if d / o.shape.chunkLen = i then bytes.getD (d - (o.shape.piece i).bodyOffset) 0
      else o.mapping.bytes.byte (o.shape.headerPadded + d) := by
  have pages := o.shape.piece_pages i d chunk body
  have start : Page.size * ((o.shape.headerPadded + (o.shape.piece i).bodyOffset) / Page.size) =
      o.shape.headerPadded + (o.shape.piece i).bodyOffset :=
    Nat.mul_div_cancel' (Nat.dvd_add o.shape.header_whole (o.shape.piece_offset_whole i chunk))
  simp only [withChunk, size]
  rw [SparseBytes.byte_install _ _ _ _ _ absent]
  simp only [pages, start, Nat.add_sub_add_left]

theorem view_with_chunk (k : Nat) (sound : o.Sound) (chunk : i < o.shape.chunks) (absent : o.lacks i)
    (brought : o.Brought value i bytes) (inside : k < o.shape.size) :
    (o.withChunk i bytes).view value k = o.view value k := by
  have shape := o.becomes_shape _ (o.with_chunk_becomes i bytes)
  refine o.view_congr (o.withChunk i bytes) value (o.view value) k inside (fun header => ?_) fun d body _ => ?_
  · have laterSound := o.with_chunk_sound i bytes sound brought.size absent
    rw [(o.withChunk i bytes).view_header value k laterSound (shape ▸ header), o.view_header value k sound header]
    simp only [withChunk, brought.size]
    rw [SparseBytes.byte_install _ _ _ _ _ absent, if_neg]
    exact fun new => o.shape.piece_behind_header i _ (o.shape.header_page k header) new.1
  · have after := (o.withChunk i bytes).view_body value d
    rw [shape, o.with_chunk_has_body i bytes d chunk body brought.size absent,
      o.byte_with_chunk i bytes d chunk absent brought.size body] at after
    rw [after, o.view_body value d]
    by_cases own : d / o.shape.chunkLen = i
    · have gone : o.hasBody d = false := by
        obtain ⟨low, high⟩ := (o.shape.piece_pages i d chunk body).mpr own
        exact absent _ low high
      rw [decide_eq_true own, Bool.true_or, if_pos rfl, if_pos own, gone, if_neg Bool.false_ne_true]
      exact o.brought_get value i d bytes brought chunk body own
    · rw [decide_eq_false own, Bool.false_or, if_neg own]
      rfl

theorem contents_with_chunk (chunk : i < o.shape.chunks) (absent : o.lacks i)
    (size : bytes.size = (o.shape.piece i).fillLen) : (o.withChunk i bytes).contents i = bytes := by
  refine (SparseBytes.slice_eq_iff _ _ _ _).mpr ⟨size, fun j within => ?_⟩
  obtain ⟨body, own⟩ := o.shape.piece_byte i j chunk within
  have place := o.byte_with_chunk i bytes _ chunk absent size body
  rw [if_pos own, Nat.add_sub_cancel_left] at place
  rw [Nat.add_assoc]
  exact place

end

section

variable (o : Managed) (value : Nat → UInt8)

theorem unsaved_cleared (i : Nat) (sound : o.Sound) (chunk : i < o.shape.chunks) : (Pager.cleared o).isSaved i = false := by
  cases store : o.swap with
  | none => simp only [Pager.cleared, isSaved, store, Option.map_none, Option.any_none]
  | some s =>
      have whole := sound.store s store
      simp only [Pager.cleared, isSaved, store, Option.map_some, Option.any_some]
      exact s.clear_dirty_saved o.shape _ whole (whole.chunks.symm ▸ chunk)

theorem view_cleared (k : Nat) (sound : o.Sound) (inside : k < o.shape.size) : (Pager.cleared o).view value k =
    if k < o.shape.headerPadded then o.view value k else o.template.pristine value (k - o.shape.headerPadded) := by
  have shape := o.becomes_shape _ (Pager.cleared_becomes o)
  refine o.view_congr (Pager.cleared o) value
    (fun k => if k < o.shape.headerPadded then o.view value k else o.template.pristine value (k - o.shape.headerPadded))
    k inside (fun header => ?_) fun d body _ => ?_
  · have laterSound := Pager.cleared_sound o sound
    rw [if_pos header, (Pager.cleared o).view_header value k laterSound (shape ▸ header), o.view_header value k sound header]
    simp only [Pager.cleared]
    by_cases nothing : o.shape.bodyReserved = 0
    · rw [if_pos nothing]
    · rw [if_neg nothing, SparseBytes.byte_drop, if_neg]
      exact fun dropped => absurd (o.shape.header_page k header) (Nat.not_lt.mpr dropped.1)
  · have after := (Pager.cleared o).view_body value d
    rw [shape, Pager.cleared_has_body o d body] at after
    rw [if_neg (by omega), Nat.add_sub_cancel_left, after, if_neg Bool.false_ne_true]
    have chunk := o.shape.chunk_of_offset_lt d body
    refine (Pager.cleared o).source_unsaved value d ?_
    rw [shape]
    exact o.unsaved_cleared _ sound chunk

theorem view_fresh (id : ObjectId) (template : Template) (base k : Nat) (swap : Option SwapStore)
    (unsaved : ∀ s, swap = some s → ∀ i, s.saved i = false) :
    (Pager.freshObject id template base swap).view value k =
      if k < template.shape.headerPadded then 0 else template.pristine value (k - template.shape.headerPadded) := by
  have source : ∀ d, (Pager.freshObject id template base swap).source value d = template.pristine value d := by
    intro d
    refine source_unsaved _ value d ?_
    cases swap with
    | none => rfl
    | some s => exact unsaved s rfl _
  rw [view, source]
  simp only [Pager.freshObject, Mapping.isPresent, SparseBytes.present_zero, SparseBytes.present_empty,
    SparseBytes.byte_zero, SparseBytes.byte_empty, ite_self, Bool.or_false, decide_eq_true_eq, Nat.zero_add, Nat.zero_le,
    true_and, Nat.div_lt_iff_lt_mul Page.size_pos, template.shape.header_pages]

theorem view_with_byte (k j : Nat) (b : UInt8) (present : o.mapping.isPresent k = true) :
    (o.withByte k b).view value j = if j = k then b else o.view value j := by
  have stays : (o.withByte k b).mapping.isPresent j = o.mapping.isPresent j := by
    simp only [withByte, Mapping.isPresent, SparseBytes.present_setByte]
    by_cases same : j / Page.size = k / Page.size
    · rw [decide_eq_true same, Bool.true_or, same]
      exact present.symm
    · rw [decide_eq_false same, Bool.false_or]
  have byte : (o.withByte k b).mapping.bytes.byte j = if j = k then b else o.mapping.bytes.byte j :=
    SparseBytes.byte_setByte _ _ _ _
  rw [view, view, stays, byte]
  by_cases own : j = k
  · rw [if_pos own, if_pos own, own, if_pos present]
  · rw [if_neg own, if_neg own]
    rfl

end

end Managed

end DemandPaging
