set_option autoImplicit false

namespace DemandPaging.Word

def limit : Nat := 0x10000000000000000

def maxSize : Nat := 0x7FFFFFFFFFFFFFFF

inductive Fault where
  | addOverflow
  | subOverflow
  | mulOverflow
  | divideByZero
  | capacityOverflow
deriving DecidableEq, Repr

def Fault.message : Fault → String
  | .addOverflow => "attempt to add with overflow"
  | .subOverflow => "attempt to subtract with overflow"
  | .mulOverflow => "attempt to multiply with overflow"
  | .divideByZero => "attempt to divide by zero"
  | .capacityOverflow => "capacity overflow"

def add (a b : Nat) : Except Fault Nat :=
  if a + b < limit then .ok (a + b) else .error .addOverflow

def sub (a b : Nat) : Except Fault Nat :=
  if b ≤ a then .ok (a - b) else .error .subOverflow

def mul (a b : Nat) : Except Fault Nat :=
  if a * b < limit then .ok (a * b) else .error .mulOverflow

def div (a b : Nat) : Except Fault Nat :=
  if b = 0 then .error .divideByZero else .ok (a / b)

def room (count width : Nat) : Except Fault Nat :=
  if count * width ≤ maxSize then .ok (count * width) else .error .capacityOverflow

-- The sum, or the largest word where the sum is none.
def addSat (a b : Nat) : Nat := min (a + b) (limit - 1)

-- The product, or the largest word where the product is none.
def mulSat (a b : Nat) : Nat := min (a * b) (limit - 1)

theorem bind_eq_ok {ε α β : Type} {x : Except ε α} {f : α → Except ε β} {b : β} :
    (x >>= f) = .ok b ↔ ∃ a, x = .ok a ∧ f a = .ok b := by
  cases x with
  | error e => simp [bind, Except.bind]
  | ok a => simp [bind, Except.bind]

theorem add_eq_ok {a b c : Nat} : add a b = .ok c ↔ a + b < limit ∧ c = a + b := by
  rw [add]
  by_cases h : a + b < limit <;> simp [h, eq_comm]

theorem sub_eq_ok {a b c : Nat} : sub a b = .ok c ↔ b ≤ a ∧ c = a - b := by
  rw [sub]
  by_cases h : b ≤ a <;> simp [h, eq_comm]

theorem mul_eq_ok {a b c : Nat} : mul a b = .ok c ↔ a * b < limit ∧ c = a * b := by
  rw [mul]
  by_cases h : a * b < limit <;> simp [h, eq_comm]

theorem div_eq_ok {a b c : Nat} : div a b = .ok c ↔ b ≠ 0 ∧ c = a / b := by
  rw [div]
  by_cases h : b = 0 <;> simp [h, eq_comm]

theorem room_eq_ok {count width c : Nat} : room count width = .ok c ↔ count * width ≤ maxSize ∧ c = count * width := by
  rw [room]
  by_cases h : count * width ≤ maxSize <;> simp [h, eq_comm]

end DemandPaging.Word
