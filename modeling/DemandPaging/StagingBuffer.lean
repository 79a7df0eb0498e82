import DemandPaging.Memory.Sparse

set_option autoImplicit false

namespace DemandPaging

structure StagingBuffer where
  capacity : Nat
  -- The bytes up to the last that was ever written; those after them are zero.
  written : Bytes
deriving DecidableEq, Repr

def StagingBuffer.first (s : StagingBuffer) (len : Nat) : Bytes :=
  s.written.extract 0 len ++ Array.replicate (len - s.written.size) 0

theorem StagingBuffer.size_first (s : StagingBuffer) (len : Nat) : (s.first len).size = len := by
  simp only [first, Array.size_append, Array.size_extract, Array.size_replicate]
  omega

variable [Platform]

namespace StagingBuffer

instance : Inhabited StagingBuffer := ⟨{ capacity := Page.size, written := #[] }⟩

-- A zeroed buffer of at least `len` bytes and at least one page. It may have to begin up to a page later than the memory
-- taken for it, because it starts on a page.
def ofSize (len : Nat) : Except Word.Fault StagingBuffer := do
  let capacity ← Page.roundUpWord (max len 1)
  let taken ← Word.add capacity Page.size
  let _ ← Word.room (taken - 1) 1
  pure { capacity, written := #[] }

def ensure (s : StagingBuffer) (len : Nat) : Except Word.Fault StagingBuffer :=
  if s.capacity < len then ofSize len else .ok s

def overwrite (s : StagingBuffer) (bytes : Bytes) : StagingBuffer :=
  { s with written := bytes ++ s.written.extract bytes.size s.written.size }

def debugText (s : StagingBuffer) : String := "ScratchBuffer \x7b capacity: " ++ toString s.capacity ++ ", .. \x7d"

end StagingBuffer

end DemandPaging
