import Mathlib.Order.Bounds.Basic
import DemandPaging.Proofs.Tiling

set_option autoImplicit false

namespace DemandPaging

theorem roundUp_least (n m : Nat) (positive : 0 < m) : IsLeast {k | n ≤ k ∧ m ∣ k} (roundUp n m) := by
  refine ⟨⟨le_roundUp n m positive, dvd_roundUp n m⟩, ?_⟩
  rintro k ⟨enough, factor, rfl⟩
  have close : ceilDiv n m * m < n + m := ceilDiv_mul_lt n m positive
  have fewer : ceilDiv n m * m < (factor + 1) * m := by
    rw [Nat.succ_mul, Nat.mul_comm factor m]
    omega
  calc roundUp n m = m * ceilDiv n m := Nat.mul_comm _ _
    _ ≤ m * factor := Nat.mul_le_mul_left m (Nat.le_of_lt_succ (Nat.lt_of_mul_lt_mul_right fewer))

namespace Word

theorem bind_eq_error {ε α β : Type} {x : Except ε α} {f : α → Except ε β} {e : ε} :
    (x >>= f) = .error e ↔ x = .error e ∨ ∃ a, x = .ok a ∧ f a = .error e := by
  cases x with
  | error e => simp [bind, Except.bind]
  | ok a => simp [bind, Except.bind]

theorem add_divides (a b : Nat) : add a b ≠ .error .divideByZero := by
  rw [add]
  by_cases h : a + b < limit <;> simp [h]

theorem mul_divides (a b : Nat) : mul a b ≠ .error .divideByZero := by
  rw [mul]
  by_cases h : a * b < limit <;> simp [h]

theorem div_divides {a b : Nat} (positive : 0 < b) : div a b ≠ .error .divideByZero := by
  rw [div, if_neg (Nat.ne_of_gt positive)]
  simp

theorem roundUp_divides {n m : Nat} (positive : 0 < m) : Word.roundUp n m ≠ .error .divideByZero := by
  rw [Word.roundUp, Word.ceilDiv, if_neg (Nat.ne_of_gt positive)]
  exact mul_divides _ _

end Word

variable [Platform]

theorem Page.roundUp_least (n : Nat) : IsLeast {k | n ≤ k ∧ Page.size ∣ k} (Page.roundUp n) :=
  DemandPaging.roundUp_least n Page.size Page.size_pos

-- What is left of a page and of the stride after their common divisor have no factor in common, so that the rest of a page
-- has to divide the number of elements.
theorem whole_pages_iff (stride n : Nat) :
    Page.size ∣ n * stride ↔ Page.size / commonDivisor Page.size stride ∣ n := by
  have positive := commonDivisor_page_pos stride
  rw [commonDivisor_eq] at positive ⊢
  have coprime := Nat.coprime_div_gcd_div_gcd positive
  obtain ⟨run, page⟩ := Nat.gcd_dvd_left Page.size stride
  obtain ⟨rest, tail⟩ := Nat.gcd_dvd_right Page.size stride
  generalize Nat.gcd Page.size stride = divisor at *
  have runs : Page.size / divisor = run := by rw [page, Nat.mul_div_cancel_left _ positive]
  have rests : stride / divisor = rest := by rw [tail, Nat.mul_div_cancel_left _ positive]
  rw [runs, rests] at coprime
  rw [runs]
  have scaled : n * stride = divisor * (n * rest) := by rw [tail, Nat.mul_left_comm]
  rw [scaled, page, Nat.mul_dvd_mul_iff_left positive]
  exact ⟨fun divides => coprime.dvd_of_dvd_mul_right divides, fun divides => Nat.dvd_mul_right_of_dvd divides rest⟩

theorem granule_least (stride minLoad : Nat) :
    IsLeast {n | max minLoad 1 ≤ n ∧ Page.size ∣ n * stride} (granule stride minLoad) := by
  simp only [whole_pages_iff]
  exact roundUp_least _ _ (granule_run_pos stride)

namespace Shape

theorem measure_divides (headerSize elementCount stride minLoad : Nat) :
    measure headerSize elementCount stride minLoad ≠ .error .divideByZero := by
  have page : 0 < commonDivisor Page.size stride := commonDivisor_page_pos stride
  have run : 0 < Page.size / commonDivisor Page.size stride := granule_run_pos stride
  simp only [measure, Page.roundUpWord, ne_eq, Word.bind_eq_error, Word.div_eq_ok, Word.div_divides page, Word.mul_divides,
    Word.add_divides, Word.roundUp_divides Page.size_pos, false_or]
  rintro ⟨_, ⟨_, rfl⟩, stopped | ⟨_, _, _, _, _, _, _, _, _, _, _, _, finished⟩⟩
  · exact Word.roundUp_divides run stopped
  · cases finished

def Fits (perChunk stride size : Nat) : Prop := perChunk * stride < Word.limit ∧ size ≤ Word.maxSize

variable {headerSize elementCount stride minLoad : Nat}

theorem accept_fits (positive : stride ≠ 0)
    (fits : Fits (granule stride minLoad) stride (Page.roundUp headerSize + Page.roundUp (elementCount * stride))) :
    ∃ s, accept headerSize elementCount stride minLoad = .ok s ∧ s.headerSize = headerSize ∧
      s.elementCount = elementCount ∧ s.stride = stride ∧ s.perChunk = granule stride minLoad := by
  obtain ⟨chunk, total⟩ := fits
  have scaled : granule stride minLoad * 1 ≤ granule stride minLoad * stride :=
    Nat.mul_le_mul_left _ (Nat.pos_of_ne_zero positive)
  have length : granule stride minLoad < Word.limit := by omega
  have word : Page.roundUp headerSize + Page.roundUp (elementCount * stride) < Word.limit :=
    Nat.lt_of_le_of_lt total (by decide)
  have measured := measure_eq_ok.mpr ⟨length, chunk, word, rfl, rfl⟩
  rw [accept, dif_neg positive]
  split
  case h_1 stopped => simp [measured] at stopped
  case h_2 n size found =>
    obtain ⟨rfl, rfl⟩ := Prod.mk.inj (Except.ok.inj (measured.symm.trans found))
    rw [dif_pos total]
    exact ⟨_, rfl, rfl, rfl, rfl, rfl⟩

theorem accept_large (positive : stride ≠ 0)
    (large : ¬ Fits (granule stride minLoad) stride (Page.roundUp headerSize + Page.roundUp (elementCount * stride))) :
    accept headerSize elementCount stride minLoad = .error (.objectTooLarge headerSize elementCount stride) := by
  rw [accept, dif_neg positive]
  split
  case h_1 => rfl
  case h_2 n size found =>
    obtain ⟨_, chunk, _, rfl, rfl⟩ := measure_eq_ok.mp found
    rw [dif_neg (fun total => large ⟨chunk, total⟩)]

-- `n`, `header` and `body` are the least multiples. The shape is refused exactly when the stride is zero or one of the
-- exact sizes is out of bounds.
theorem accept_exact (headerSize elementCount stride minLoad : Nat) :
    ∃ n header body,
      IsLeast {n | max minLoad 1 ≤ n ∧ Page.size ∣ n * stride} n ∧
      IsLeast {m | headerSize ≤ m ∧ Page.size ∣ m} header ∧
      IsLeast {m | elementCount * stride ≤ m ∧ Page.size ∣ m} body ∧
      (accept headerSize elementCount stride minLoad = .error (.invalidStride stride) ↔ stride = 0) ∧
      ((∃ s, accept headerSize elementCount stride minLoad = .ok s ∧ s.headerSize = headerSize ∧
          s.elementCount = elementCount ∧ s.stride = stride ∧ s.perChunk = n ∧
          s.layout.trueSize = .ok (header + body)) ↔
        stride ≠ 0 ∧ Fits n stride (header + body)) ∧
      (accept headerSize elementCount stride minLoad = .error (.objectTooLarge headerSize elementCount stride) ↔
        stride ≠ 0 ∧ ¬ Fits n stride (header + body)) ∧
      measure headerSize elementCount stride minLoad ≠ .error .divideByZero := by
  refine ⟨_, _, _, granule_least stride minLoad, Page.roundUp_least headerSize,
    Page.roundUp_least (elementCount * stride), ?_⟩
  have divides := measure_divides headerSize elementCount stride minLoad
  by_cases zero : stride = 0
  · subst zero
    have refused : accept headerSize elementCount 0 minLoad = .error (.invalidStride 0) := by
      rw [accept, dif_pos rfl]
    simp [refused, divides]
  by_cases fits : Fits (granule stride minLoad) stride (Page.roundUp headerSize + Page.roundUp (elementCount * stride))
  · obtain ⟨s, accepted, rfl, rfl, rfl, length⟩ := accept_fits zero fits
    have size : s.layout.trueSize = .ok (Page.roundUp s.headerSize + Page.roundUp (s.elementCount * s.stride)) :=
      s.layout_true_size
    simp [accepted, zero, fits, divides, length, size]
  · have refused := accept_large zero fits
    simp [refused, zero, fits, divides]

end Shape

end DemandPaging
