import DemandPaging.Memory.PageTable
import DemandPaging.Page

set_option autoImplicit false

namespace DemandPaging

variable [Platform]

abbrev Bytes := Array UInt8

abbrev Frame := Vector UInt8 Page.size

def Frame.zero : Frame := Vector.replicate Page.size 0

def Frame.byte (f : Frame) (i : Nat) : UInt8 :=
  have inside := Nat.mod_lt i Page.size_pos
  f[i % Page.size]

structure SparseBytes where
  frames : PageTable Frame
deriving DecidableEq

namespace SparseBytes

def empty : SparseBytes := ⟨.empty⟩

instance : Inhabited SparseBytes := ⟨empty⟩

def frame? (m : SparseBytes) (page : Nat) : Option Frame := m.frames.get? page

def isPresent (m : SparseBytes) (page : Nat) : Bool := (m.frame? page).isSome

def byte (m : SparseBytes) (i : Nat) : UInt8 :=
  match m.frame? (i / Page.size) with
  | some frame => frame.byte i
  | none => 0

def put (m : SparseBytes) (page : Nat) (frame : Frame) : SparseBytes := ⟨m.frames.alter page fun _ => frame⟩

def setByte (m : SparseBytes) (i : Nat) (b : UInt8) : SparseBytes :=
  ⟨m.frames.alter (i / Page.size) fun old => (old.getD Frame.zero).set (i % Page.size) b (Nat.mod_lt i Page.size_pos)⟩

def patched (m : SparseBytes) (page offset : Nat) (bytes : Bytes) : Frame :=
  Vector.ofFn fun (k : Fin Page.size) =>
    let i := Page.size * page + k.val
    if offset ≤ i then bytes.getD (i - offset) (m.byte i) else m.byte i

def write (m : SparseBytes) (offset : Nat) (bytes : Bytes) : SparseBytes :=
  if bytes.isEmpty then
    m
  else
    let first := offset / Page.size
    let last := (offset + bytes.size - 1) / Page.size
    (List.range' first (last + 1 - first)).foldl (fun acc page => acc.put page (acc.patched page offset bytes)) m

def slice (m : SparseBytes) (offset len : Nat) : Bytes := Array.ofFn fun (i : Fin len) => m.byte (offset + i.val)

def drop (m : SparseBytes) (first count : Nat) : SparseBytes :=
  ⟨m.frames.filter fun page => !(decide (first ≤ page) && decide (page < first + count))⟩

def zero (m : SparseBytes) (first count : Nat) : SparseBytes :=
  (List.range' first count).foldl (fun acc page => acc.put page Frame.zero) m

def supply (m : SparseBytes) (page : Nat) : SparseBytes := if m.isPresent page then m else m.put page Frame.zero

-- Installs `count` pages of `bytes` from page `first` on, up to the first page that exists already. The second part says
-- whether all were installed.
def install (m : SparseBytes) (first : Nat) (bytes : Bytes) : Nat → SparseBytes × Bool
  | 0 => (m, true)
  | count + 1 =>
    let (before, complete) := install m first bytes count
    if complete && !before.isPresent (first + count) then
      (before.put (first + count) (Vector.ofFn fun k => bytes.getD (Page.size * count + k.val) 0), true)
    else
      (before, false)

theorem frame?_put (m : SparseBytes) (page other : Nat) (frame : Frame) :
    (m.put page frame).frame? other = if other = page then some frame else m.frame? other :=
  PageTable.get?_alter m.frames page other fun _ => frame

theorem frame?_drop (m : SparseBytes) (first count page : Nat) :
    (m.drop first count).frame? page = if first ≤ page ∧ page < first + count then none else m.frame? page := by
  simp only [drop, frame?, PageTable.get?_filter]
  by_cases inside : first ≤ page ∧ page < first + count
  · simp [inside]
  · have outside : (decide (first ≤ page) && decide (page < first + count)) = false := by simpa using inside
    simp [inside, outside]

theorem size_slice (m : SparseBytes) (offset len : Nat) : (m.slice offset len).size = len := by
  simp [slice]

theorem byte_setByte (m : SparseBytes) (i j : Nat) (b : UInt8) :
    (m.setByte i b).byte j = if j = i then b else m.byte j := by
  simp only [setByte, byte, frame?, PageTable.get?_alter]
  by_cases samePage : j / Page.size = i / Page.size
  · simp only [samePage, if_pos]
    by_cases same : j = i
    · subst same
      simp [Frame.byte]
    · have apart : i % Page.size ≠ j % Page.size := by
        intro equal
        apply same
        have left := Nat.div_add_mod i Page.size
        have right := Nat.div_add_mod j Page.size
        rw [samePage] at right
        omega
      simp only [same, if_false, Frame.byte, Vector.getElem_set_ne _ _ apart]
      cases m.frames.get? (i / Page.size) with
      | none => simp [Frame.zero]
      | some frame => simp
  · have same : j ≠ i := fun equal => samePage (by rw [equal])
    simp [samePage, same]

end SparseBytes

end DemandPaging
