import DemandPaging.Proofs.PageContents
import DemandPaging.Proofs.Tiling
import DemandPaging.SwapStore

set_option autoImplicit false

namespace DemandPaging.SwapStore

theorem or_and_distrib (a b c : UInt8) : (a ||| b) &&& c = (a &&& c) ||| (b &&& c) := by
  apply UInt8.toBitVec_inj.mp
  simp only [UInt8.toBitVec_and, UInt8.toBitVec_or]
  ext i inside
  simp only [BitVec.getElem_and, BitVec.getElem_or, Bool.and_or_distrib_right]

theorem bit_and_bit (i j : Nat) : bit i &&& bit j = if i % 8 = j % 8 then bit j else 0 := by
  have table : ∀ a b : Fin 8, (1 : UInt8) <<< UInt8.ofNat a.val &&& 1 <<< UInt8.ofNat b.val =
      if a.val = b.val then 1 <<< UInt8.ofNat b.val else 0 := by decide
  exact table ⟨i % 8, Nat.mod_lt i (by decide)⟩ ⟨j % 8, Nat.mod_lt j (by decide)⟩

theorem bit_ne_zero (i : Nat) : bit i ≠ 0 := by
  have table : ∀ a : Fin 8, (1 : UInt8) <<< UInt8.ofNat a.val ≠ 0 := by decide
  exact table ⟨i % 8, Nat.mod_lt i (by decide)⟩

theorem marked_bit (b : UInt8) (i j : Nat) :
    ((b ||| bit j) &&& bit i != 0) = (decide (i % 8 = j % 8) || (b &&& bit i != 0)) := by
  rw [or_and_distrib, bit_and_bit]
  by_cases same : j % 8 = i % 8
  · rw [if_pos same]
    simp [same, bit_ne_zero]
  · rw [if_neg same]
    simp [Ne.symm same]

variable [Platform]

def saved (s : SwapStore) (index : Nat) : Bool := s.map.bytes.byte (index / 8) &&& bit index != 0

def payload (s : SwapStore) (offset : Nat) : UInt8 := s.map.bytes.byte (s.bitmapLen + offset)

structure Sound (s : SwapStore) (shape : Shape) : Prop where
  chunks : s.chunkCount = shape.chunks
  bitmap : s.bitmapLen = Page.roundUp (ceilDiv shape.chunks 8)
  payload : s.payloadLen = shape.bodyReserved
  len : s.map.len = s.bitmapLen + s.payloadLen

variable (s : SwapStore) (shape : Shape)

theorem bit_in_bitmap (index : Nat) (sound : s.Sound shape) (inside : index < s.chunkCount) : index / 8 < s.bitmapLen := by
  have enough : shape.chunks ≤ ceilDiv shape.chunks 8 * 8 := le_ceilDiv_mul _ _ (by decide)
  have rounded := Page.le_roundUp (ceilDiv shape.chunks 8)
  rw [sound.bitmap]
  rw [sound.chunks] at inside
  omega

theorem is_dirty_saved (index : Nat) (inside : index < s.chunkCount) : s.isDirty index = .ok (s.saved index) := by
  simp only [isDirty, checkChunk, if_pos inside]
  rfl

theorem set_dirty_saved (index : Nat) (sound : s.Sound shape) (inside : index < s.chunkCount) :
    ∃ next, s.setDirty index = .ok next ∧ next.Sound shape ∧ next.map.span = s.map.span ∧
      (∀ i, next.saved i = (decide (i = index) || s.saved i)) ∧ ∀ offset, next.payload offset = s.payload offset := by
  have front := bit_in_bitmap s shape index sound inside
  simp only [setDirty, checkChunk, if_pos inside]
  refine ⟨_, rfl, ⟨sound.chunks, sound.bitmap, sound.payload, sound.len⟩, rfl, fun i => ?_, fun offset => ?_⟩
  · simp only [saved, SparseBytes.byte_setByte]
    by_cases sameByte : i / 8 = index / 8
    · rw [if_pos sameByte, marked_bit, sameByte]
      congr 1
      exact decide_eq_decide.mpr ⟨fun same => by omega, fun same => by rw [same]⟩
    · have different : i ≠ index := fun same => sameByte (by rw [same])
      simp [sameByte, different]
  · simp only [payload, SparseBytes.byte_setByte]
    rw [if_neg (by omega)]

theorem clear_dirty_sound (sound : s.Sound shape) : s.clearDirty.Sound shape :=
  ⟨sound.chunks, sound.bitmap, sound.payload, sound.len⟩

theorem bitmap_pages (sound : s.Sound shape) : s.bitmapLen / Page.size * Page.size = s.bitmapLen := by
  rw [sound.bitmap]
  exact Nat.div_mul_cancel (Page.dvd_roundUp _)

theorem clear_dirty_bits (i : Nat) (sound : s.Sound shape) (front : i / 8 < s.bitmapLen) : s.clearDirty.saved i = false := by
  have dropped : 0 ≤ i / 8 / Page.size ∧ i / 8 / Page.size < 0 + s.bitmapLen / Page.size := by
    refine ⟨Nat.zero_le _, ?_⟩
    rw [Nat.zero_add, Nat.div_lt_iff_lt_mul Page.size_pos, bitmap_pages s shape sound]
    exact front
  simp only [saved, clearDirty, SparseBytes.byte_drop, if_pos dropped, UInt8.zero_and]
  rfl

theorem clear_dirty_saved (index : Nat) (sound : s.Sound shape) (inside : index < s.chunkCount) :
    s.clearDirty.saved index = false :=
  clear_dirty_bits s shape index sound (bit_in_bitmap s shape index sound inside)

theorem load_payload (offset len : Nat) (sound : s.Sound shape) (inside : offset + len ≤ s.payloadLen) :
    s.load offset len = .ok (s.map.bytes.slice (s.bitmapLen + offset) len) := by
  have mapped : s.bitmapLen + offset + len ≤ s.map.len := by
    rw [sound.len]
    omega
  simp only [load, checkPayload, if_pos inside, Mapping.read, Mapping.check, if_pos mapped]
  rfl

theorem store_payload (offset : Nat) (bytes : Bytes) (sound : s.Sound shape)
    (inside : offset + bytes.size ≤ s.payloadLen) :
    ∃ next, s.store offset bytes = .ok next ∧ next.Sound shape ∧ next.map.span = s.map.span ∧
      (∀ i, i / 8 < s.bitmapLen → next.saved i = s.saved i) ∧
      ∀ k, next.payload k =
        if offset ≤ k ∧ k < offset + bytes.size then bytes.getD (k - offset) 0 else s.payload k := by
  have mapped : s.bitmapLen + offset + bytes.size ≤ s.map.len := by
    rw [sound.len]
    omega
  simp only [store, checkPayload, if_pos inside, Mapping.write, Mapping.check, if_pos mapped]
  refine ⟨_, rfl, ⟨sound.chunks, sound.bitmap, sound.payload, sound.len⟩, rfl, fun i front => ?_, fun k => ?_⟩
  · simp only [saved, SparseBytes.byte_write]
    rw [if_neg (by omega)]
  · simp only [payload, SparseBytes.byte_write]
    by_cases written : offset ≤ k ∧ k < offset + bytes.size
    · rw [if_pos written, if_pos (by omega), Nat.add_sub_add_left]
    · rw [if_neg written, if_neg (by omega)]

-- The store afterwards holds these bytes of a chunk, marked as saved; the rest of it is as before.
structure Takes (index : Nat) (bytes : Bytes) (next : SwapStore) : Prop where
  sound : next.Sound shape
  span : next.map.span = s.map.span
  saved : ∀ i, i < shape.chunks → next.saved i = (decide (i = index) || s.saved i)
  spare : ∀ i, shape.chunks ≤ i → i / 8 < s.bitmapLen → next.saved i = s.saved i
  payload : ∀ k, next.payload k =
    if (shape.piece index).bodyOffset ≤ k ∧ k < (shape.piece index).bodyOffset + bytes.size
    then bytes.getD (k - (shape.piece index).bodyOffset) 0 else s.payload k

theorem store_marked (index : Nat) (bytes : Bytes) (sound : s.Sound shape) (inside : index < shape.chunks)
    (size : bytes.size = (shape.piece index).fillLen) :
    ∃ stored marked, s.store (shape.piece index).bodyOffset bytes = .ok stored ∧ stored.setDirty index = .ok marked ∧
      s.Takes shape index bytes marked := by
  have fits : (shape.piece index).bodyOffset + bytes.size ≤ s.payloadLen := by
    rw [size, sound.payload]
    exact shape.piece_end_le index inside
  obtain ⟨stored, storedEq, storedSound, storedSpan, storedSaved, storedPayload⟩ :=
    store_payload s shape (shape.piece index).bodyOffset bytes sound fits
  obtain ⟨marked, markedEq, markedSound, markedSpan, markedSaved, markedPayload⟩ :=
    set_dirty_saved stored shape index storedSound (storedSound.chunks ▸ inside)
  refine ⟨stored, marked, storedEq, markedEq, markedSound, markedSpan.trans storedSpan, fun i chunk => ?_,
    fun i behind front => ?_, fun k => ?_⟩
  · rw [markedSaved, storedSaved i (bit_in_bitmap s shape i sound (sound.chunks ▸ chunk))]
  · have other : i ≠ index := Nat.ne_of_gt (Nat.lt_of_lt_of_le inside behind)
    rw [markedSaved, storedSaved i front, decide_eq_false other, Bool.false_or]
  · rw [markedPayload, storedPayload]

theorem chunks_le_pages : shape.chunks * Page.size < shape.bodyReserved + Page.size := by
  obtain ⟨k, whole⟩ := shape.chunk_len_whole
  have length := shape.chunk_len_pos
  have positive : 0 < k := by
    rcases Nat.eq_zero_or_pos k with zero | positive
    · rw [zero, Nat.mul_zero] at whole
      omega
    · exact positive
  have page : Page.size ≤ shape.chunkLen := by
    rw [whole]
    exact Nat.le_mul_of_pos_right _ positive
  rcases Nat.eq_zero_or_pos shape.chunks with none | some
  · rw [none, Nat.zero_mul]
    exact Nat.add_pos_right _ Page.size_pos
  · have last := shape.chunk_begins (shape.chunks - 1) (by omega)
    have scaled := Nat.mul_le_mul_left (shape.chunks - 1) page
    rw [Nat.sub_mul, Nat.one_mul] at scaled
    omega

theorem bitmap_fits : Page.roundUp (ceilDiv shape.chunks 8) + shape.bodyReserved < Word.limit := by
  have pages := chunks_le_pages shape
  have each := Nat.le_mul_of_pos_right shape.chunks Page.size_pos
  have reserved := shape.body_reserved_le
  have bits : ceilDiv shape.chunks 8 * 8 < shape.chunks + 8 := ceilDiv_mul_lt _ _ (by decide)
  have rounded : Page.roundUp (ceilDiv shape.chunks 8) < ceilDiv shape.chunks 8 + Page.size :=
    ceilDiv_mul_lt _ _ Page.size_pos
  have page := Page.size_le
  simp only [Word.maxSize, Word.limit] at reserved ⊢
  omega

def lengthFor (shape : Shape) : Nat := Page.roundUp (ceilDiv shape.chunks 8) + shape.bodyReserved

def fresh (shape : Shape) (base : Nat) : SwapStore where
  map := { base, len := lengthFor shape, shared := true, bytes := .empty }
  bitmapLen := Page.roundUp (ceilDiv shape.chunks 8)
  payloadLen := shape.bodyReserved
  chunkCount := shape.chunks

theorem fresh_sound (base : Nat) : (fresh shape base).Sound shape := ⟨rfl, rfl, rfl, rfl⟩

theorem fresh_saved (base i : Nat) : (fresh shape base).saved i = false := by
  simp only [saved, fresh, SparseBytes.byte_empty, UInt8.zero_and]
  rfl

theorem create_eq (host : Host) (used : List Span) (directory : String) :
    create host used directory shape.layout =
      if lengthFor shape = 0 then
        .error (.failed (.invariant .emptyBody))
      else
        match host.refuse (.createFile directory) with
        | some cause => .error (.failed (.resource "create backing file" cause))
        | none =>
          match host.refuse (.sizeFile (lengthFor shape)) with
          | some cause => .error (.failed (.resource "size backing file" cause))
          | none =>
            match host.place used (lengthFor shape) with
            | none => .error (.failed (.resource "mmap backing store" (.numbered SystemError.outOfMemory)))
            | some base => .ok (fresh shape base) := by
  have fits := bitmap_fits shape
  have bitmap : Page.roundUpWord (ceilDiv shape.chunks 8) = .ok (Page.roundUp (ceilDiv shape.chunks 8)) :=
    Page.roundUpWord_eq_ok.mpr ⟨by omega, rfl⟩
  have total : Word.add (Page.roundUp (ceilDiv shape.chunks 8)) shape.layout.bodyReserved = .ok (lengthFor shape) :=
    Word.add_eq_ok.mpr ⟨fits, rfl⟩
  rw [create]
  rw [shape.layout_chunk_count]
  simp only [Halt.ofWord, Except.mapError, bind, Except.bind, bitmap, total, pure, Except.pure]
  by_cases empty : lengthFor shape = 0
  · rw [if_pos empty, if_pos empty]
    rfl
  · rw [if_neg empty, if_neg empty]
    simp only [Host.ask]
    cases host.refuse (.createFile directory) with
    | some cause => rfl
    | none =>
        cases host.refuse (.sizeFile (lengthFor shape)) with
        | some cause => rfl
        | none =>
            simp only [Halt.ofFailure, Except.mapError, Mapping.ofFile, if_neg empty]
            cases host.place used (lengthFor shape) with
            | none => rfl
            | some base => rfl

theorem length_for_pos (body : shape.bodyLen ≠ 0) : lengthFor shape ≠ 0 := by
  have reserved := shape.body_len_le
  rw [lengthFor]
  omega

theorem created_eq (host : Host) (used : List Span) (directory : String) (s : SwapStore)
    (created : create host used directory shape.layout = .ok s) : ∃ base, s = fresh shape base := by
  rw [create_eq] at created
  split at created
  · cases created
  · split at created
    · cases created
    · split at created
      · cases created
      · split at created
        · cases created
        · exact ⟨_, (Except.ok.inj created).symm⟩

end DemandPaging.SwapStore
