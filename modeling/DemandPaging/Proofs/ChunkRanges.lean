import Mathlib.Logic.ExistsUnique
import DemandPaging.Proofs.Tiling

set_option autoImplicit false

namespace DemandPaging

-- Range `i` reaches from `start i` up to but not including `stop i`;
-- the first `count` ranges lie end to end from zero to `total`.
structure Tiles (count total : Nat) (start stop : Nat → Nat) : Prop where
  filled : ∀ i, i < count → start i < stop i
  first : 0 < count → start 0 = 0
  next : ∀ i, i + 1 < count → start (i + 1) = stop i
  last : ∀ i, i + 1 = count → stop i = total
  covered : ∀ x, x < total ↔ ∃! i, i < count ∧ start i ≤ x ∧ x < stop i

theorem tiles_of_length {count total len : Nat} {start stop : Nat → Nat} (positive : 0 < len)
    (enough : total ≤ count * len) (begins : ∀ i, i < count → i * len < total)
    (starts : ∀ i, i < count → start i = i * len) (stops : ∀ i, i < count → stop i = min ((i + 1) * len) total) :
    Tiles count total start stop where
  filled i inside := by
    have below := begins i inside
    rw [starts i inside, stops i inside, Nat.succ_mul]
    omega
  first inside := by rw [starts 0 inside, Nat.zero_mul]
  next i inside := by
    rw [starts (i + 1) inside, stops i (by omega)]
    exact (Nat.min_eq_left (Nat.le_of_lt (begins (i + 1) inside))).symm
  last i final := by
    rw [stops i (by omega), final]
    exact Nat.min_eq_right enough
  covered x := by
    have located : ∀ i, i < count → (start i ≤ x ∧ x < stop i ↔ x < total ∧ x / len = i) := by
      intro i inside
      rw [starts i inside, stops i inside, Nat.div_eq_iff positive, Nat.succ_mul]
      omega
    constructor
    · intro below
      have inside : x / len < count :=
        Nat.div_lt_of_lt_mul (Nat.lt_of_lt_of_le below (Nat.mul_comm count len ▸ enough))
      refine ⟨x / len, ⟨inside, (located _ inside).mpr ⟨below, rfl⟩⟩, ?_⟩
      rintro i ⟨number, within⟩
      exact ((located i number).mp within).2.symm
    · rintro ⟨i, ⟨inside, within⟩, _⟩
      exact ((located i inside).mp within).1

variable [Platform]

-- Every operation of the layout gives a result, whatever number it is asked about; the chunks tile the elements and, in whole
-- pages, the reserved body, and a byte of the body is found in the one chunk that has it.
structure Layout.Tiled (l : Layout) (count : Nat) (chunk : Nat → Chunk) : Prop where
  words : l.headerPadded < Word.limit ∧ l.bodyLen < Word.limit ∧ l.bodyReserved < Word.limit
  true_size : l.trueSize = .ok (l.headerPadded + l.bodyReserved)
  header_offset : l.headerOffset = .ok (l.headerPadded - l.headerSize)
  chunk_bytes : l.chunkBytes = .ok (l.perChunk * l.stride)
  chunk_count : l.chunkCount = .ok count
  chunk_given : ∀ i, l.chunk i = .ok (chunk i)
  elements : Tiles count l.elementCount (fun i => (chunk i).start) (fun i => (chunk i).stop)
  bytes : Tiles count l.bodyReserved (fun i => (chunk i).bodyOffset) (fun i => (chunk i).bodyOffset + (chunk i).fillLen)
  pages : ∀ i, i < count → Page.size ∣ (chunk i).bodyOffset ∧ Page.size ∣ (chunk i).fillLen
  data_ends : ∀ i, i + 1 = count → (chunk i).bodyOffset + (chunk i).dataLen = l.bodyLen
  chunk_behind : ∀ offset, l.chunkAt offset = .ok none ↔ l.bodyReserved ≤ offset
  chunk_found : ∀ offset c, l.chunkAt offset = .ok (some c) ↔
    ∃ k, k < count ∧ c = chunk k ∧ c.bodyOffset ≤ offset ∧ offset < c.bodyOffset + c.fillLen
  empty : ∀ i, count ≤ i → (chunk i).start = (chunk i).stop ∧ (chunk i).dataLen = 0 ∧ (chunk i).fillLen = 0
  longest : ∀ i, (chunk i).fillLen ≤ (chunk 0).fillLen

namespace Shape

variable (s : Shape)

theorem elements_tiled : Tiles s.chunks s.elementCount (fun i => (s.piece i).start) (fun i => (s.piece i).stop) :=
  tiles_of_length s.perChunk_pos (le_ceilDiv_mul _ _ s.perChunk_pos) s.chunk_starts s.piece_start s.piece_stop

theorem bytes_tiled :
    Tiles s.chunks s.bodyReserved (fun i => (s.piece i).bodyOffset)
      (fun i => (s.piece i).bodyOffset + (s.piece i).fillLen) :=
  tiles_of_length s.chunk_len_pos s.body_reserved_le_chunks s.chunk_begins s.piece_offset s.piece_end

theorem piece_empty (i : Nat) (behind : s.chunks ≤ i) :
    (s.piece i).start = (s.piece i).stop ∧ (s.piece i).dataLen = 0 ∧ (s.piece i).fillLen = 0 := by
  have enough : s.elementCount ≤ i * s.perChunk :=
    Nat.le_trans (le_ceilDiv_mul _ _ s.perChunk_pos) (Nat.mul_le_mul_right _ behind)
  have start : (s.piece i).start = s.elementCount := Nat.min_eq_right enough
  have stop : (s.piece i).stop = s.elementCount := by
    show min ((s.piece i).start + s.perChunk) s.elementCount = _
    rw [start]
    omega
  have data : (s.piece i).dataLen = 0 := by
    show ((s.piece i).stop - (s.piece i).start) * s.stride = 0
    rw [start, stop, Nat.sub_self, Nat.zero_mul]
  refine ⟨start.trans stop.symm, data, ?_⟩
  show Page.roundUp (s.piece i).dataLen = 0
  rw [data]
  exact Page.roundUp_zero

theorem piece_data_last (i : Nat) (last : i + 1 = s.chunks) : (s.piece i).bodyOffset + (s.piece i).dataLen = s.bodyLen := by
  rw [s.piece_data_end i (by omega), last]
  exact Nat.min_eq_right (Nat.le_trans s.body_len_le s.body_reserved_le_chunks)

theorem piece_longest (i : Nat) : (s.piece i).fillLen ≤ (s.piece 0).fillLen := by
  by_cases inside : i < s.chunks
  · exact s.piece_fill_le_first i inside
  · rw [(s.piece_empty i (Nat.le_of_not_lt inside)).2.2]
    exact Nat.zero_le _

theorem chunk_at_some (offset : Nat) (c : Chunk) :
    s.layout.chunkAt offset = .ok (some c) ↔
      ∃ k, k < s.chunks ∧ c = s.piece k ∧ c.bodyOffset ≤ offset ∧ offset < c.bodyOffset + c.fillLen := by
  rw [layout_chunk_at]
  constructor
  · intro found
    by_cases behind : s.bodyReserved ≤ offset
    · simp [if_pos behind] at found
    · rw [if_neg behind] at found
      obtain rfl := Option.some.inj (Except.ok.inj found)
      have inside := s.chunk_of_offset_lt offset (by omega)
      exact ⟨_, inside, rfl, (s.piece_of_offset offset _ inside).mpr ⟨by omega, rfl⟩⟩
  · rintro ⟨k, inside, rfl, within⟩
    obtain ⟨below, rfl⟩ := (s.piece_of_offset offset k inside).mp within
    rw [if_neg (by omega)]

theorem chunk_at_none (offset : Nat) : s.layout.chunkAt offset = .ok none ↔ s.bodyReserved ≤ offset := by
  rw [layout_chunk_at]
  by_cases behind : s.bodyReserved ≤ offset <;> simp [behind]

theorem layout_tiled : ∃ count chunk, s.layout.Tiled count chunk := by
  have size := s.size_lt_limit
  have body := s.body_len_le
  refine ⟨s.chunks, s.piece, ?_⟩
  exact {
    words := by
      show s.headerPadded < _ ∧ s.bodyLen < _ ∧ s.bodyReserved < _
      unfold Shape.size at size
      omega
    true_size := s.layout_true_size
    header_offset := Word.sub_eq_ok.mpr ⟨Page.le_roundUp s.headerSize, rfl⟩
    chunk_bytes := Word.mul_eq_ok.mpr ⟨s.chunk_word, rfl⟩
    chunk_count := s.layout_chunk_count
    chunk_given := s.layout_chunk
    elements := s.elements_tiled
    bytes := s.bytes_tiled
    pages := fun i inside => ⟨s.piece_offset_whole i inside, s.piece_fill_whole i⟩
    data_ends := s.piece_data_last
    chunk_behind := s.chunk_at_none
    chunk_found := s.chunk_at_some
    empty := s.piece_empty
    longest := s.piece_longest }

end Shape

end DemandPaging
