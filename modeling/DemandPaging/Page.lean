import DemandPaging.Word

set_option autoImplicit false

namespace DemandPaging

def ceilDiv (n d : Nat) : Nat := n / d + (if n % d = 0 then 0 else 1)

def roundUp (n m : Nat) : Nat := ceilDiv n m * m

def commonDivisor (a b : Nat) : Nat :=
  if b = 0 then a else commonDivisor b (a % b)
termination_by b
decreasing_by exact Nat.mod_lt a (by omega)

namespace Word

def ceilDiv (n d : Nat) : Except Fault Nat :=
  if d = 0 then .error .divideByZero else .ok (DemandPaging.ceilDiv n d)

def roundUp (n m : Nat) : Except Fault Nat := do
  mul (← ceilDiv n m) m

end Word

theorem commonDivisor_eq (a b : Nat) : commonDivisor a b = Nat.gcd a b := by
  induction a, b using commonDivisor.induct with
  | case1 a =>
    rw [commonDivisor, if_pos rfl, Nat.gcd_zero_right]
  | case2 a b remains next =>
    rw [commonDivisor, if_neg remains, next, Nat.gcd_comm b (a % b), ← Nat.gcd_rec b a, Nat.gcd_comm b a]

theorem le_ceilDiv_mul (n d : Nat) (h : 0 < d) : n ≤ ceilDiv n d * d := by
  have split := Nat.div_add_mod n d
  have small := Nat.mod_lt n h
  rw [ceilDiv]
  by_cases exact : n % d = 0
  · simp only [exact, if_pos, Nat.add_zero, Nat.mul_comm (n / d) d]
    omega
  · simp only [exact, if_false, Nat.add_mul, Nat.one_mul, Nat.mul_comm (n / d) d]
    omega

theorem ceilDiv_mul_lt (n d : Nat) (h : 0 < d) : ceilDiv n d * d < n + d := by
  have split := Nat.div_add_mod n d
  rw [ceilDiv]
  by_cases exact : n % d = 0
  · simp only [exact, if_pos, Nat.add_zero, Nat.mul_comm (n / d) d]
    omega
  · simp only [exact, if_false, Nat.add_mul, Nat.one_mul, Nat.mul_comm (n / d) d]
    omega

theorem le_roundUp (n m : Nat) (h : 0 < m) : n ≤ roundUp n m := le_ceilDiv_mul n m h

theorem dvd_roundUp (n m : Nat) : m ∣ roundUp n m := ⟨ceilDiv n m, Nat.mul_comm _ _⟩

theorem Word.ceilDiv_eq_ok {n d c : Nat} : Word.ceilDiv n d = .ok c ↔ d ≠ 0 ∧ c = DemandPaging.ceilDiv n d := by
  rw [Word.ceilDiv]
  by_cases h : d = 0 <;> simp [h, eq_comm]

theorem Word.roundUp_eq_ok {n m c : Nat} :
    Word.roundUp n m = .ok c ↔ m ≠ 0 ∧ DemandPaging.roundUp n m < Word.limit ∧ c = DemandPaging.roundUp n m := by
  rw [Word.roundUp]
  rw [Word.bind_eq_ok]
  constructor
  · intro given
    obtain ⟨quotient, divided, multiplied⟩ := given
    obtain ⟨positive, rfl⟩ := Word.ceilDiv_eq_ok.mp divided
    exact ⟨positive, Word.mul_eq_ok.mp multiplied⟩
  · intro given
    obtain ⟨positive, fits⟩ := given
    exact ⟨_, Word.ceilDiv_eq_ok.mpr ⟨positive, rfl⟩, Word.mul_eq_ok.mpr fits⟩

-- What the system decides once for all processes.
class Platform where
  pageBits : Nat
  pageBits_le : pageBits ≤ 62

-- Where the system does not say.
instance (priority := low) Platform.standard : Platform := ⟨12, by decide⟩

def Page.size [Platform] : Nat := 1 <<< Platform.pageBits

variable [Platform]

def Page.roundUp (n : Nat) : Nat := DemandPaging.roundUp n Page.size

def Page.count (n : Nat) : Nat := ceilDiv n Page.size

def Page.roundUpWord (n : Nat) : Except Word.Fault Nat := Word.roundUp n Page.size

theorem Page.size_pos : 0 < Page.size := by
  rw [Page.size, Nat.one_shiftLeft]
  exact Nat.two_pow_pos Platform.pageBits

theorem Page.size_le : Page.size ≤ 1 <<< 62 := by
  rw [Page.size, Nat.one_shiftLeft, Nat.one_shiftLeft]
  exact Nat.pow_le_pow_right Nat.two_pos Platform.pageBits_le

theorem Page.roundUpWord_eq_ok {n c : Nat} :
    Page.roundUpWord n = .ok c ↔ Page.roundUp n < Word.limit ∧ c = Page.roundUp n := by
  rw [Page.roundUpWord]
  rw [Word.roundUp_eq_ok]
  exact ⟨fun h => h.2, fun h => ⟨Nat.ne_of_gt Page.size_pos, h⟩⟩

theorem Page.next_fits (n : Nat) (whole : Page.size ∣ n) (small : n ≤ Word.maxSize) : n + Page.size - 1 ≤ Word.maxSize := by
  obtain ⟨k, rfl⟩ := whole
  have limit : Word.maxSize + 1 = Page.size * 2 ^ (63 - Platform.pageBits) := by
    rw [Page.size, Nat.one_shiftLeft, ← Nat.pow_add, Nat.add_sub_cancel' (Nat.le_succ_of_le Platform.pageBits_le)]
    rfl
  have below : k < 2 ^ (63 - Platform.pageBits) :=
    Nat.lt_of_mul_lt_mul_left (limit ▸ Nat.lt_succ_of_le small : Page.size * k < Page.size * 2 ^ (63 - Platform.pageBits))
  have next := Nat.mul_le_mul_left Page.size (Nat.succ_le_of_lt below)
  rw [← limit, Nat.mul_succ] at next
  omega

theorem Page.le_roundUp (n : Nat) : n ≤ Page.roundUp n := DemandPaging.le_roundUp n _ Page.size_pos

end DemandPaging
