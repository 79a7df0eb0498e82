import DemandPaging.Failure
import DemandPaging.Layout

set_option autoImplicit false

namespace DemandPaging

variable [Platform]

-- The least number of elements, at least `minLoad` and at least one, whose bytes fill whole pages.
def granule (stride minLoad : Nat) : Nat :=
  let run := Page.size / commonDivisor Page.size stride
  roundUp (max minLoad 1) run

structure Shape where
  headerSize : Nat
  elementCount : Nat
  stride : Nat
  perChunk : Nat
  stride_pos : 0 < stride
  perChunk_pos : 0 < perChunk
  chunk_pages : Page.size ∣ perChunk * stride
  chunk_word : perChunk * stride < Word.limit
  size_le : Page.roundUp headerSize + Page.roundUp (elementCount * stride) ≤ Word.maxSize
deriving DecidableEq

theorem commonDivisor_page_pos (stride : Nat) : 0 < commonDivisor Page.size stride := by
  rw [commonDivisor_eq]
  exact Nat.gcd_pos_of_pos_left _ Page.size_pos

theorem granule_run_pos (stride : Nat) : 0 < Page.size / commonDivisor Page.size stride := by
  have divides : commonDivisor Page.size stride ∣ Page.size := by
    rw [commonDivisor_eq]
    exact Nat.gcd_dvd_left _ _
  exact Nat.div_pos (Nat.le_of_dvd Page.size_pos divides) (commonDivisor_page_pos stride)

theorem granule_pos (stride minLoad : Nat) : 0 < granule stride minLoad :=
  Nat.lt_of_lt_of_le (by omega : 0 < max minLoad 1) (le_roundUp _ _ (granule_run_pos stride))

theorem granule_pages (stride minLoad : Nat) : Page.size ∣ granule stride minLoad * stride := by
  obtain ⟨k, hk⟩ := dvd_roundUp (max minLoad 1) (Page.size / Nat.gcd Page.size stride)
  obtain ⟨s, hs⟩ := Nat.gcd_dvd_right Page.size stride
  have page : Page.size = Page.size / Nat.gcd Page.size stride * Nat.gcd Page.size stride :=
    (Nat.div_mul_cancel (Nat.gcd_dvd_left _ _)).symm
  refine ⟨k * s, ?_⟩
  calc granule stride minLoad * stride
      = Page.size / Nat.gcd Page.size stride * k * stride := by rw [granule, commonDivisor_eq, hk]
    _ = Page.size / Nat.gcd Page.size stride * k * (Nat.gcd Page.size stride * s) := by rw [← hs]
    _ = Page.size / Nat.gcd Page.size stride * Nat.gcd Page.size stride * (k * s) := by
        simp only [Nat.mul_assoc, Nat.mul_left_comm]
    _ = Page.size * (k * s) := by rw [← page]

namespace Shape

def measure (headerSize elementCount stride minLoad : Nat) : Except Word.Fault (Nat × Nat) := do
  let run ← Word.div Page.size (commonDivisor Page.size stride)
  let perChunk ← Word.roundUp (max minLoad 1) run
  let _ ← Word.mul perChunk stride
  let bodyLen ← Word.mul elementCount stride
  let body ← Page.roundUpWord bodyLen
  let header ← Page.roundUpWord headerSize
  let size ← Word.add header body
  pure (perChunk, size)

theorem measure_eq_ok {headerSize elementCount stride minLoad perChunk size : Nat} :
    measure headerSize elementCount stride minLoad = .ok (perChunk, size) ↔
      granule stride minLoad < Word.limit ∧ granule stride minLoad * stride < Word.limit ∧
        Page.roundUp headerSize + Page.roundUp (elementCount * stride) < Word.limit ∧
        perChunk = granule stride minLoad ∧
        size = Page.roundUp headerSize + Page.roundUp (elementCount * stride) := by
  simp only [measure, Word.bind_eq_ok, Word.div_eq_ok, Word.roundUp_eq_ok, Word.mul_eq_ok, Page.roundUpWord_eq_ok,
    Word.add_eq_ok]
  constructor
  · intro given
    obtain ⟨_, ⟨_, rfl⟩, _, ⟨_, fits, rfl⟩, _, ⟨chunk, rfl⟩, _, ⟨_, rfl⟩, _, ⟨_, rfl⟩, _, ⟨_, rfl⟩, _, ⟨total, rfl⟩, same⟩ :=
      given
    simp only [pure, Except.pure, Except.ok.injEq, Prod.mk.injEq] at same
    exact ⟨fits, chunk, total, same.1.symm, same.2.symm⟩
  · intro given
    obtain ⟨fits, chunk, total, rfl, rfl⟩ := given
    have body := Page.le_roundUp (elementCount * stride)
    refine ⟨_, ⟨Nat.ne_of_gt (commonDivisor_page_pos stride), rfl⟩, _, ⟨Nat.ne_of_gt (granule_run_pos stride), fits, rfl⟩,
      _, ⟨chunk, rfl⟩, _, ⟨?_, rfl⟩, _, ⟨?_, rfl⟩, _, ⟨?_, rfl⟩, _, ⟨total, rfl⟩, rfl⟩
    all_goals omega

def accept (headerSize elementCount stride minLoad : Nat) : Except Failure Shape :=
  if zero : stride = 0 then
    .error (.invalidStride stride)
  else
    match measured : measure headerSize elementCount stride minLoad with
    | .error _ => .error (.objectTooLarge headerSize elementCount stride)
    | .ok (perChunk, size) =>
      if small : size ≤ Word.maxSize then
        have exact := measure_eq_ok.mp measured
        .ok {
          headerSize, elementCount, stride, perChunk
          stride_pos := Nat.pos_of_ne_zero zero
          perChunk_pos := exact.2.2.2.1 ▸ granule_pos stride minLoad
          chunk_pages := exact.2.2.2.1 ▸ granule_pages stride minLoad
          chunk_word := exact.2.2.2.1 ▸ exact.2.1
          size_le := exact.2.2.2.2 ▸ small }
      else
        .error (.objectTooLarge headerSize elementCount stride)

def bodyLen (s : Shape) : Nat := s.elementCount * s.stride

def layout (s : Shape) : Layout where
  headerSize := s.headerSize
  headerPadded := Page.roundUp s.headerSize
  bodyLen := s.bodyLen
  bodyReserved := Page.roundUp s.bodyLen
  elementCount := s.elementCount
  stride := s.stride
  perChunk := s.perChunk

end Shape

end DemandPaging
