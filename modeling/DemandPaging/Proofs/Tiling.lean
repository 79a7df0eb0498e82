import DemandPaging.Shape

set_option autoImplicit false

namespace DemandPaging

theorem ceilDiv_eq (n d : Nat) (positive : 0 < d) : ceilDiv n d = (n + (d - 1)) / d := by
  have split := Nat.div_add_mod n d
  have small := Nat.mod_lt n positive
  rw [Nat.mul_comm] at split
  rw [ceilDiv, eq_comm]
  by_cases exact : n % d = 0
  · rw [if_pos exact]
    apply Nat.div_eq_of_lt_le
    · rw [Nat.add_zero]
      omega
    · rw [Nat.succ_mul]
      omega
  · rw [if_neg exact]
    apply Nat.div_eq_of_lt_le
    · rw [Nat.add_mul]
      omega
    · rw [Nat.succ_mul, Nat.add_mul]
      omega

theorem Shape.min_word (a n : Nat) (small : n ≤ Word.maxSize) : min (min a (Word.limit - 1)) n = min a n := by
  simp only [Word.maxSize, Word.limit] at *
  omega

variable [Platform]

theorem Page.roundUp_eq (n : Nat) : Page.roundUp n = (n + (Page.size - 1)) / Page.size * Page.size := by
  rw [Page.roundUp, DemandPaging.roundUp, ceilDiv_eq n Page.size Page.size_pos]

theorem Page.roundUp_mono (a b : Nat) (le : a ≤ b) : Page.roundUp a ≤ Page.roundUp b := by
  rw [Page.roundUp_eq, Page.roundUp_eq]
  exact Nat.mul_le_mul_right _ (Nat.div_le_div_right (Nat.add_le_add_right le _))

theorem Page.dvd_roundUp (n : Nat) : Page.size ∣ Page.roundUp n := DemandPaging.dvd_roundUp n Page.size

theorem Page.roundUp_add (a b : Nat) (whole : Page.size ∣ a) : Page.roundUp (a + b) = a + Page.roundUp b := by
  obtain ⟨k, rfl⟩ := whole
  rw [Page.roundUp_eq, Page.roundUp_eq, Nat.add_assoc, Nat.mul_add_div Page.size_pos, Nat.add_mul, Nat.mul_comm k]

theorem Page.count_zero : Page.count 0 = 0 := by
  rw [Page.count, ceilDiv, Nat.zero_div, Nat.zero_mod, if_pos rfl]

theorem Page.roundUp_zero : Page.roundUp 0 = 0 :=
  (congrArg (· * Page.size) Page.count_zero).trans (Nat.zero_mul Page.size)

theorem Page.roundUp_of_dvd (n : Nat) (whole : Page.size ∣ n) : Page.roundUp n = n := by
  have added := Page.roundUp_add n 0 whole
  rwa [Nat.add_zero, Page.roundUp_zero] at added

theorem Page.one_whole : Page.size ∣ 1 * Page.size := ⟨1, Nat.mul_comm _ _⟩

theorem Page.one_word : 1 * Page.size < Word.limit := by
  have page := Page.size_le
  simp only [Word.limit]
  omega

theorem Page.one_fits : Page.roundUp 0 + Page.roundUp (1 * Page.size) ≤ Word.maxSize := by
  have page := Page.size_le
  rw [Page.roundUp_zero, Page.roundUp_of_dvd _ Page.one_whole]
  simp only [Word.maxSize]
  omega

theorem Page.roundUp_min (a b : Nat) : Page.roundUp (min a b) = min (Page.roundUp a) (Page.roundUp b) := by
  rcases Nat.le_total a b with le | le
  · rw [Nat.min_eq_left le, Nat.min_eq_left (Page.roundUp_mono a b le)]
  · rw [Nat.min_eq_right le, Nat.min_eq_right (Page.roundUp_mono b a le)]

theorem Page.count_mul (n : Nat) : Page.count n * Page.size = Page.roundUp n := rfl

namespace Shape

def chunkLen (s : Shape) : Nat := s.perChunk * s.stride

def chunks (s : Shape) : Nat := ceilDiv s.elementCount s.perChunk

def headerPadded (s : Shape) : Nat := Page.roundUp s.headerSize

def bodyReserved (s : Shape) : Nat := Page.roundUp s.bodyLen

def size (s : Shape) : Nat := s.headerPadded + s.bodyReserved

def piece (s : Shape) (index : Nat) : Chunk :=
  let start := min (index * s.perChunk) s.elementCount
  let stop := min (start + s.perChunk) s.elementCount
  let dataLen := (stop - start) * s.stride
  { index, start, stop, bodyOffset := start * s.stride, dataLen, fillLen := Page.roundUp dataLen }

theorem chunk_len_pos (s : Shape) : 0 < s.chunkLen := Nat.mul_pos s.perChunk_pos s.stride_pos

theorem chunk_len_whole (s : Shape) : Page.size ∣ s.chunkLen := s.chunk_pages

theorem size_lt_limit (s : Shape) : s.size < Word.limit :=
  Nat.lt_of_le_of_lt s.size_le (by decide)

theorem body_len_le (s : Shape) : s.bodyLen ≤ s.bodyReserved := Page.le_roundUp s.bodyLen

theorem body_reserved_le (s : Shape) : s.bodyReserved ≤ Word.maxSize :=
  Nat.le_trans (Nat.le_add_left _ _) s.size_le

theorem element_count_le (s : Shape) : s.elementCount ≤ Word.maxSize := by
  have scaled : s.elementCount * 1 ≤ s.elementCount * s.stride := Nat.mul_le_mul_left _ s.stride_pos
  have body : s.elementCount * s.stride ≤ s.bodyReserved := s.body_len_le
  have reserved := s.body_reserved_le
  omega

theorem header_whole (s : Shape) : Page.size ∣ s.headerPadded := Page.dvd_roundUp _

theorem body_whole (s : Shape) : Page.size ∣ s.bodyReserved := Page.dvd_roundUp _

theorem layout_chunk (s : Shape) (index : Nat) : s.layout.chunk index = .ok (s.piece index) := by
  have count := s.element_count_le
  have start : min (Word.mulSat index s.perChunk) s.elementCount = min (index * s.perChunk) s.elementCount :=
    min_word _ _ count
  have stop : ∀ a, min (Word.addSat a s.perChunk) s.elementCount = min (a + s.perChunk) s.elementCount :=
    fun a => min_word _ _ count
  have words : s.bodyReserved < Word.limit := Nat.lt_of_le_of_lt s.body_reserved_le (by decide)
  have body : s.elementCount * s.stride ≤ s.bodyReserved := s.body_len_le
  have lower : min (index * s.perChunk) s.elementCount * s.stride ≤ s.elementCount * s.stride :=
    Nat.mul_le_mul_right _ (Nat.min_le_right _ _)
  have length : (s.piece index).dataLen ≤ s.elementCount * s.stride :=
    Nat.mul_le_mul_right _ (Nat.le_trans (Nat.sub_le _ _) (Nat.min_le_right _ _))
  have rounded : (s.piece index).fillLen ≤ s.bodyReserved := Page.roundUp_mono _ _ length
  simp only [Layout.chunk, layout, start, stop, Word.bind_eq_ok, Word.mul_eq_ok, Word.sub_eq_ok, Page.roundUpWord_eq_ok]
  refine ⟨_, ⟨?_, rfl⟩, _, ⟨?_, rfl⟩, _, ⟨?_, rfl⟩, _, ⟨?_, rfl⟩, rfl⟩
  · omega
  · exact Nat.lt_of_le_of_lt length (by omega)
  · omega
  · exact Nat.lt_of_le_of_lt rounded words

theorem layout_true_size (s : Shape) : s.layout.trueSize = .ok s.size :=
  Word.add_eq_ok.mpr ⟨s.size_lt_limit, rfl⟩

theorem layout_chunk_count (s : Shape) : s.layout.chunkCount = .ok s.chunks :=
  Word.ceilDiv_eq_ok.mpr ⟨Nat.ne_of_gt s.perChunk_pos, rfl⟩

theorem layout_chunk_at (s : Shape) (offset : Nat) :
    s.layout.chunkAt offset =
      .ok (if s.bodyReserved ≤ offset then none else some (s.piece (offset / s.chunkLen))) := by
  have reserved : s.layout.bodyReserved = s.bodyReserved := rfl
  rw [Layout.chunkAt]
  rw [reserved]
  by_cases behind : s.bodyReserved ≤ offset
  · rw [if_pos behind, if_pos behind]
    rfl
  · have length : s.layout.chunkBytes = .ok s.chunkLen := Word.mul_eq_ok.mpr ⟨s.chunk_word, rfl⟩
    have number : Word.div offset s.chunkLen = .ok (offset / s.chunkLen) :=
      Word.div_eq_ok.mpr ⟨Nat.ne_of_gt s.chunk_len_pos, rfl⟩
    rw [if_neg behind, if_neg behind, length]
    simp only [bind, Except.bind, number, layout_chunk]
    rfl

theorem body_reserved_le_chunks (s : Shape) : s.bodyReserved ≤ s.chunks * s.chunkLen := by
  have elements : s.elementCount ≤ s.chunks * s.perChunk := le_ceilDiv_mul _ _ s.perChunk_pos
  have bytes : s.bodyLen ≤ s.chunks * s.chunkLen := by
    calc s.bodyLen = s.elementCount * s.stride := rfl
      _ ≤ s.chunks * s.perChunk * s.stride := Nat.mul_le_mul_right _ elements
      _ = s.chunks * s.chunkLen := Nat.mul_assoc _ _ _
  calc s.bodyReserved ≤ Page.roundUp (s.chunks * s.chunkLen) := Page.roundUp_mono _ _ bytes
    _ = s.chunks * s.chunkLen := Page.roundUp_of_dvd _ (Nat.dvd_mul_left_of_dvd s.chunk_len_whole _)

theorem chunk_starts (s : Shape) (i : Nat) (inside : i < s.chunks) : i * s.perChunk < s.elementCount := by
  have enough : s.chunks * s.perChunk < s.elementCount + s.perChunk := ceilDiv_mul_lt _ _ s.perChunk_pos
  have next : (i + 1) * s.perChunk ≤ s.chunks * s.perChunk := Nat.mul_le_mul_right _ inside
  rw [Nat.succ_mul] at next
  omega

theorem piece_start (s : Shape) (i : Nat) (inside : i < s.chunks) : (s.piece i).start = i * s.perChunk :=
  Nat.min_eq_left (Nat.le_of_lt (s.chunk_starts i inside))

theorem piece_stop (s : Shape) (i : Nat) (inside : i < s.chunks) :
    (s.piece i).stop = min ((i + 1) * s.perChunk) s.elementCount := by
  show min (min (i * s.perChunk) s.elementCount + s.perChunk) s.elementCount = _
  rw [Nat.min_eq_left (Nat.le_of_lt (s.chunk_starts i inside)), Nat.succ_mul]

theorem piece_offset (s : Shape) (i : Nat) (inside : i < s.chunks) : (s.piece i).bodyOffset = i * s.chunkLen := by
  show (s.piece i).start * s.stride = _
  rw [s.piece_start i inside, Nat.mul_assoc]
  rfl

theorem piece_data_end (s : Shape) (i : Nat) (inside : i < s.chunks) :
    (s.piece i).bodyOffset + (s.piece i).dataLen = min ((i + 1) * s.chunkLen) s.bodyLen := by
  have starts := s.chunk_starts i inside
  have order : (s.piece i).start ≤ (s.piece i).stop := by
    rw [s.piece_start i inside, s.piece_stop i inside, Nat.succ_mul]
    omega
  calc (s.piece i).bodyOffset + (s.piece i).dataLen
      = (s.piece i).start * s.stride + ((s.piece i).stop - (s.piece i).start) * s.stride := rfl
    _ = (s.piece i).stop * s.stride := by rw [← Nat.add_mul, Nat.add_sub_cancel' order]
    _ = min ((i + 1) * s.perChunk) s.elementCount * s.stride := by rw [s.piece_stop i inside]
    _ = min ((i + 1) * s.perChunk * s.stride) (s.elementCount * s.stride) := Nat.mul_min_mul_right _ _ _ |>.symm
    _ = min ((i + 1) * s.chunkLen) s.bodyLen := by rw [Nat.mul_assoc]; rfl

theorem piece_end (s : Shape) (i : Nat) (inside : i < s.chunks) :
    (s.piece i).bodyOffset + (s.piece i).fillLen = min ((i + 1) * s.chunkLen) s.bodyReserved := by
  have whole : Page.size ∣ (s.piece i).bodyOffset := by
    rw [s.piece_offset i inside]
    exact Nat.dvd_mul_left_of_dvd s.chunk_len_whole _
  calc (s.piece i).bodyOffset + (s.piece i).fillLen
      = Page.roundUp ((s.piece i).bodyOffset + (s.piece i).dataLen) := (Page.roundUp_add _ _ whole).symm
    _ = Page.roundUp (min ((i + 1) * s.chunkLen) s.bodyLen) := by rw [s.piece_data_end i inside]
    _ = min (Page.roundUp ((i + 1) * s.chunkLen)) s.bodyReserved := Page.roundUp_min _ _
    _ = min ((i + 1) * s.chunkLen) s.bodyReserved := by
        rw [Page.roundUp_of_dvd _ (Nat.dvd_mul_left_of_dvd s.chunk_len_whole _)]

theorem piece_offset_whole (s : Shape) (i : Nat) (inside : i < s.chunks) : Page.size ∣ (s.piece i).bodyOffset := by
  rw [s.piece_offset i inside]
  exact Nat.dvd_mul_left_of_dvd s.chunk_len_whole _

theorem piece_fill_whole (s : Shape) (i : Nat) : Page.size ∣ (s.piece i).fillLen := Page.dvd_roundUp _

theorem piece_data_le (s : Shape) (i : Nat) : (s.piece i).dataLen ≤ (s.piece i).fillLen := Page.le_roundUp _

theorem piece_end_le (s : Shape) (i : Nat) (inside : i < s.chunks) :
    (s.piece i).bodyOffset + (s.piece i).fillLen ≤ s.bodyReserved := by
  rw [s.piece_end i inside]
  exact Nat.min_le_right _ _

theorem chunk_begins (s : Shape) (i : Nat) (inside : i < s.chunks) : i * s.chunkLen < s.bodyReserved := by
  have starts := s.chunk_starts i inside
  calc i * s.chunkLen = i * s.perChunk * s.stride := (Nat.mul_assoc _ _ _).symm
    _ < s.elementCount * s.stride := Nat.mul_lt_mul_of_pos_right starts s.stride_pos
    _ ≤ s.bodyReserved := s.body_len_le

theorem piece_fill_pos (s : Shape) (i : Nat) (inside : i < s.chunks) : 0 < (s.piece i).fillLen := by
  have ends := s.piece_end i inside
  have begins := s.chunk_begins i inside
  have length := s.chunk_len_pos
  rw [s.piece_offset i inside, Nat.succ_mul] at ends
  omega

theorem piece_pages_pos (s : Shape) (i : Nat) (inside : i < s.chunks) : 0 < Page.count (s.piece i).fillLen := by
  have product := Page.count_mul (s.piece i).fillLen
  rw [Page.roundUp_of_dvd _ (s.piece_fill_whole i)] at product
  exact Nat.pos_of_mul_pos_right (product.symm ▸ s.piece_fill_pos i inside)

theorem piece_fill_le_first (s : Shape) (i : Nat) (inside : i < s.chunks) : (s.piece i).fillLen ≤ (s.piece 0).fillLen := by
  have ends := s.piece_end i inside
  have first := s.piece_end 0 (by omega)
  rw [s.piece_offset i inside, Nat.succ_mul] at ends
  rw [s.piece_offset 0 (by omega), Nat.succ_mul] at first
  omega

theorem chunk_of_offset_lt (s : Shape) (offset : Nat) (inside : offset < s.bodyReserved) :
    offset / s.chunkLen < s.chunks := by
  apply Nat.div_lt_of_lt_mul
  rw [Nat.mul_comm]
  exact Nat.lt_of_lt_of_le inside s.body_reserved_le_chunks

theorem piece_of_offset (s : Shape) (offset i : Nat) (inside : i < s.chunks) :
    ((s.piece i).bodyOffset ≤ offset ∧ offset < (s.piece i).bodyOffset + (s.piece i).fillLen) ↔
      offset < s.bodyReserved ∧ offset / s.chunkLen = i := by
  rw [s.piece_end i inside, s.piece_offset i inside, Nat.div_eq_iff s.chunk_len_pos, Nat.succ_mul]
  have length := s.chunk_len_pos
  omega

theorem piece_byte (s : Shape) (i j : Nat) (inside : i < s.chunks) (within : j < (s.piece i).fillLen) :
    (s.piece i).bodyOffset + j < s.bodyReserved ∧ ((s.piece i).bodyOffset + j) / s.chunkLen = i :=
  (s.piece_of_offset ((s.piece i).bodyOffset + j) i inside).mp ⟨Nat.le_add_right _ _, Nat.add_lt_add_left within _⟩

theorem header_pages (s : Shape) : s.headerPadded / Page.size * Page.size = s.headerPadded :=
  Nat.div_mul_cancel s.header_whole

theorem header_page (s : Shape) (k : Nat) (header : k < s.headerPadded) : k / Page.size < s.headerPadded / Page.size := by
  apply Nat.div_lt_of_lt_mul
  rw [Nat.mul_comm, s.header_pages]
  exact header

theorem body_page (s : Shape) (k : Nat) :
    (s.headerPadded + k) / Page.size = s.headerPadded / Page.size + k / Page.size := by
  obtain ⟨pages, whole⟩ := s.header_whole
  rw [whole, Nat.mul_add_div Page.size_pos, Nat.mul_div_cancel_left _ Page.size_pos]

theorem piece_pages (s : Shape) (i k : Nat) (inside : i < s.chunks) (body : k < s.bodyReserved) :
    ((s.headerPadded + (s.piece i).bodyOffset) / Page.size ≤ (s.headerPadded + k) / Page.size ∧
      (s.headerPadded + k) / Page.size <
        (s.headerPadded + (s.piece i).bodyOffset) / Page.size + Page.count (s.piece i).fillLen) ↔ k / s.chunkLen = i := by
  have located := s.piece_of_offset k i inside
  obtain ⟨first, offset⟩ := s.piece_offset_whole i inside
  obtain ⟨count, fill⟩ := s.piece_fill_whole i
  have pages : Page.count (s.piece i).fillLen = count := by
    have product := Page.count_mul (s.piece i).fillLen
    rw [Page.roundUp_of_dvd _ (s.piece_fill_whole i), fill, Nat.mul_comm] at product
    rw [fill]
    exact Nat.eq_of_mul_eq_mul_left Page.size_pos product
  rw [pages, s.body_page, s.body_page, offset, Nat.mul_div_cancel_left _ Page.size_pos]
  rw [offset, fill] at located
  have scaled : ∀ pages, (Page.size * pages ≤ k ↔ pages ≤ k / Page.size) ∧ (k < Page.size * pages ↔ k / Page.size < pages) := by
    intro pages
    rw [Nat.mul_comm, Nat.le_div_iff_mul_le Page.size_pos, Nat.div_lt_iff_lt_mul Page.size_pos]
    exact ⟨Iff.rfl, Iff.rfl⟩
  rw [← Nat.mul_add, (scaled first).1, (scaled (first + count)).2] at located
  omega

theorem piece_page_offset (s : Shape) (i page : Nat) (inside : i < s.chunks)
    (low : (s.headerPadded + (s.piece i).bodyOffset) / Page.size ≤ page)
    (high : page < (s.headerPadded + (s.piece i).bodyOffset) / Page.size + Page.count (s.piece i).fillLen) :
    ∃ k, k < s.bodyReserved ∧ (s.headerPadded + k) / Page.size = page ∧ k / s.chunkLen = i := by
  have ends := s.piece_end_le i inside
  have counted := Page.count_mul (s.piece i).fillLen
  rw [Page.roundUp_of_dvd _ (s.piece_fill_whole i)] at counted
  generalize Page.count (s.piece i).fillLen = count at high counted
  obtain ⟨first, offset⟩ := s.piece_offset_whole i inside
  rw [s.body_page, offset, Nat.mul_div_cancel_left _ Page.size_pos] at low high
  generalize headerPages : s.headerPadded / Page.size = header at low high
  have located := s.piece_of_offset (Page.size * (page - header)) i inside
  rw [offset, ← counted] at ends located
  have bounds : Page.size * first ≤ Page.size * (page - header) ∧
      Page.size * (page - header) < Page.size * first + count * Page.size := by
    rw [Nat.mul_comm count, ← Nat.mul_add]
    exact ⟨Nat.mul_le_mul_left _ (by omega), Nat.mul_lt_mul_of_pos_left (by omega) Page.size_pos⟩
  refine ⟨Page.size * (page - header), by omega, ?_, (located.mp bounds).2⟩
  rw [s.body_page, headerPages, Nat.mul_div_cancel_left _ Page.size_pos]
  omega

theorem body_pages (s : Shape) (k : Nat) (body : k < s.bodyReserved) :
    s.headerPadded / Page.size ≤ (s.headerPadded + k) / Page.size ∧
      (s.headerPadded + k) / Page.size < s.headerPadded / Page.size + Page.count s.bodyReserved := by
  have product := Page.count_mul s.bodyReserved
  rw [Page.roundUp_of_dvd _ s.body_whole] at product
  rw [s.body_page]
  refine ⟨Nat.le_add_right _ _, Nat.add_lt_add_left ((Nat.div_lt_iff_lt_mul Page.size_pos).mpr ?_) _⟩
  rw [product]
  exact body

theorem piece_behind_header (s : Shape) (i page : Nat) (header : page < s.headerPadded / Page.size) :
    ¬ (s.headerPadded + (s.piece i).bodyOffset) / Page.size ≤ page := by
  rw [s.body_page]
  exact fun reached => absurd header (Nat.not_lt.mpr (Nat.le_trans (Nat.le_add_right _ _) reached))

end Shape

end DemandPaging
