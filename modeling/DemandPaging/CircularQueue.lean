import DemandPaging.Word

set_option autoImplicit false

namespace DemandPaging

structure CircularQueue (α : Type) where
  buf : Array α
  head : Nat
  tail : Nat
  len : Nat
deriving Repr

namespace CircularQueue

variable {α : Type} [Inhabited α]

inductive Refusal where
  | full
  | shrink (capacity requested : Nat)
deriving DecidableEq, Repr

def Refusal.message : Refusal → String
  | .full => "eviction ring is full"
  | .shrink capacity requested =>
    "cannot shrink eviction ring from " ++ toString capacity ++ " to " ++ toString requested ++ " slots"

def withCapacity (capacity : Nat) : CircularQueue α where
  buf := Array.replicate (max capacity 1) default
  head := 0
  tail := 0
  len := 0

instance : Inhabited (CircularQueue α) := ⟨withCapacity 1⟩

def capacity (q : CircularQueue α) : Nat := q.buf.size

def isEmpty (q : CircularQueue α) : Bool := q.len == 0

-- The slot of the record that is `i` places younger than the oldest.
def slot (q : CircularQueue α) (i : Nat) : Nat := (q.tail + i) % q.buf.size

def toList (q : CircularQueue α) : List α :=
  (List.range q.len).map fun i => q.buf.getD (q.slot i) default

-- Copies slots `0` to `count - 1`, in this order, to the slots that follow the old end, wrapping at the new end.
def relocate (buf : Array α) (old : Nat) : Nat → Array α
  | 0 => buf
  | count + 1 =>
    let moved := relocate buf old count
    moved.setIfInBounds ((old + count) % moved.size) (moved.getD count default)

-- Makes room for `wanted` records. Where the records run past the old end, those at the front are moved behind it.
def resize (q : CircularQueue α) (wanted : Nat) : Except Refusal (CircularQueue α) :=
  let old := q.buf.size
  if wanted < old then
    .error (.shrink old wanted)
  else if wanted = old then
    .ok q
  else
    let buf := q.buf ++ Array.replicate (wanted - old) default
    if q.len = 0 then
      .ok { q with buf, head := 0, tail := 0 }
    else if q.head ≤ q.tail then
      .ok { q with buf := relocate buf old q.head, head := (old + q.head) % wanted }
    else
      .ok { q with buf }

def append (q : CircularQueue α) (record : α) : CircularQueue α :=
  { q with
    buf := q.buf.setIfInBounds q.head record
    head := (q.head + 1) % q.buf.size
    len := q.len + 1 }

def push (q : CircularQueue α) (record : α) (mayGrow : Bool) : Except Refusal (CircularQueue α) :=
  if q.len = q.buf.size then
    if mayGrow then
      (q.resize (q.buf.size + max (q.buf.size / 2) 1)).map (·.append record)
    else
      .error .full
  else
    .ok (q.append record)

-- The slots take memory, `width` bytes each. What follows stops where they no longer fit the address space.
def tryNew (capacity width : Nat) : Except Word.Fault (CircularQueue α) := do
  let _ ← Word.room (max capacity 1) width
  pure (withCapacity capacity)

def tryResize (q : CircularQueue α) (wanted width : Nat) : Except Word.Fault (Except Refusal (CircularQueue α)) := do
  let _ ← Word.room wanted width
  pure (q.resize wanted)

def tryPush (q : CircularQueue α) (record : α) (mayGrow : Bool) (width : Nat) :
    Except Word.Fault (Except Refusal (CircularQueue α)) := do
  if q.len = q.buf.size ∧ mayGrow then
    let _ ← Word.room (q.buf.size + max (q.buf.size / 2) 1) width
  pure (q.push record mayGrow)

theorem try_new_eq_ok (capacity width : Nat) (q : CircularQueue α) :
    tryNew capacity width = .ok q ↔ max capacity 1 * width ≤ Word.maxSize ∧ q = withCapacity capacity := by
  simp only [tryNew, Word.bind_eq_ok, Word.room_eq_ok]
  constructor
  · rintro ⟨_, ⟨fits, rfl⟩, made⟩
    cases made
    exact ⟨fits, rfl⟩
  · rintro ⟨fits, rfl⟩
    exact ⟨_, ⟨fits, rfl⟩, rfl⟩

theorem try_resize_eq_ok (q : CircularQueue α) (wanted width : Nat) (result : Except Refusal (CircularQueue α)) :
    q.tryResize wanted width = .ok result ↔ wanted * width ≤ Word.maxSize ∧ result = q.resize wanted := by
  simp only [tryResize, Word.bind_eq_ok, Word.room_eq_ok]
  constructor
  · rintro ⟨_, ⟨fits, rfl⟩, made⟩
    cases made
    exact ⟨fits, rfl⟩
  · rintro ⟨fits, rfl⟩
    exact ⟨_, ⟨fits, rfl⟩, rfl⟩

theorem try_push_eq_ok (q : CircularQueue α) (record : α) (mayGrow : Bool) (width : Nat)
    (result : Except Refusal (CircularQueue α)) : q.tryPush record mayGrow width = .ok result ↔
      (q.len = q.buf.size → mayGrow = true → (q.buf.size + max (q.buf.size / 2) 1) * width ≤ Word.maxSize) ∧
      result = q.push record mayGrow := by
  rw [tryPush]
  by_cases grows : q.len = q.buf.size ∧ mayGrow = true
  · simp only [if_pos grows, Word.bind_eq_ok, Word.room_eq_ok]
    constructor
    · rintro ⟨_, ⟨fits, rfl⟩, made⟩
      cases made
      exact ⟨fun _ _ => fits, rfl⟩
    · rintro ⟨fits, rfl⟩
      exact ⟨_, ⟨fits grows.1 grows.2, rfl⟩, rfl⟩
  · rw [if_neg grows]
    constructor
    · intro made
      cases made
      exact ⟨fun full able => absurd ⟨full, able⟩ grows, rfl⟩
    · rintro ⟨-, rfl⟩
      rfl

def peek? (q : CircularQueue α) : Option α :=
  if q.len = 0 then none else some (q.buf.getD q.tail default)

def pop (q : CircularQueue α) : Option (α × CircularQueue α) :=
  if q.len = 0 then
    none
  else
    some (q.buf.getD q.tail default, { q with tail := (q.tail + 1) % q.buf.size, len := q.len - 1 })

def popNewest (q : CircularQueue α) : Option (α × CircularQueue α) :=
  if q.len = 0 then
    none
  else
    let head := (q.head + q.buf.size - 1) % q.buf.size
    some (q.buf.getD head default, { q with head, len := q.len - 1 })

def map (q : CircularQueue α) (f : α → α) : CircularQueue α :=
  { q with buf := (List.range q.len).foldl (fun buf i => buf.modify (q.slot i) f) q.buf }

def visitSlot {σ : Type} (q : CircularQueue α) (f : σ → α → σ × α) (reached : σ × Array α) (i : Nat) : σ × Array α :=
  let (seen, record) := f reached.1 (reached.2.getD (q.slot i) default)
  (seen, reached.2.setIfInBounds (q.slot i) record)

def visit {σ : Type} (q : CircularQueue α) (f : σ → α → σ × α) (start : σ) : σ × CircularQueue α :=
  let (seen, buf) := (List.range q.len).foldl (q.visitSlot f) (start, q.buf)
  (seen, { q with buf })

structure WellFormed (q : CircularQueue α) : Prop where
  capacity_pos : 0 < q.buf.size
  tail_lt : q.tail < q.buf.size
  len_le : q.len ≤ q.buf.size
  head_eq : q.head = (q.tail + q.len) % q.buf.size

def debugText (q : CircularQueue α) : String :=
  "EvictionRing \x7b len: " ++ toString q.len ++ ", capacity: " ++ toString q.buf.size ++ ", head: " ++ toString q.head ++
    ", tail: " ++ toString q.tail ++ " \x7d"

end CircularQueue

end DemandPaging
