import DemandPaging.Layout
import DemandPaging.Memory.Mapping

/-!
Where the chunks of one object are kept that were changed before they were evicted: a file, mapped shared, with one bit per
chunk in front, rounded up to pages, and then the body. A chunk lies at the offset that it has in the body; its bit says
that the saved copy is to be used.
-/

set_option autoImplicit false

namespace DemandPaging

inductive Halt where
  | failed (failure : Failure)
  | arithmetic (fault : Word.Fault)
  | assertion (text : String)
deriving DecidableEq, Repr

def Halt.ofWord {α : Type} : Except Word.Fault α → Except Halt α := Except.mapError .arithmetic

def Halt.ofFailure {α : Type} : Except Failure α → Except Halt α := Except.mapError .failed

theorem Halt.of_word_eq_ok {α : Type} {e : Except Word.Fault α} {a : α} : Halt.ofWord e = .ok a ↔ e = .ok a := by
  cases e with
  | error fault => constructor <;> intro same <;> cases same
  | ok b => constructor <;> intro same <;> cases same <;> rfl

variable [Platform]

structure SwapStore where
  map : Mapping
  bitmapLen : Nat
  payloadLen : Nat
  chunkCount : Nat
deriving DecidableEq

namespace SwapStore

def create (host : Host) (used : List Span) (directory : String) (layout : Layout) : Except Halt SwapStore := do
  let chunkCount ← Halt.ofWord layout.chunkCount
  let bitmapLen ← Halt.ofWord (Page.roundUpWord (ceilDiv chunkCount 8))
  let payloadLen := layout.bodyReserved
  let total ← Halt.ofWord (Word.add bitmapLen payloadLen)
  if total = 0 then
    throw (.failed (.invariant .emptyBody))
  Halt.ofFailure (host.ask (.createFile directory))
  Halt.ofFailure (host.ask (.sizeFile total))
  let map ← Halt.ofFailure (Mapping.ofFile host used total)
  pure { map, bitmapLen, payloadLen, chunkCount }

def checkChunk (s : SwapStore) (index : Nat) : Except Failure Unit :=
  if index < s.chunkCount then .ok () else .error (.invariant (.chunkOutside index s.chunkCount))

def checkPayload (s : SwapStore) (offset len : Nat) : Except Failure Unit :=
  if offset + len ≤ s.payloadLen then .ok () else .error (.invariant (.payloadRange offset len s.payloadLen))

def bit (index : Nat) : UInt8 := 1 <<< UInt8.ofNat (index % 8)

def isDirty (s : SwapStore) (index : Nat) : Except Failure Bool := do
  s.checkChunk index
  pure (s.map.bytes.byte (index / 8) &&& bit index != 0)

def setDirty (s : SwapStore) (index : Nat) : Except Failure SwapStore := do
  s.checkChunk index
  let marked := s.map.bytes.byte (index / 8) ||| bit index
  pure { s with map := { s.map with bytes := s.map.bytes.setByte (index / 8) marked } }

-- Forgets every saved copy; the payload keeps its bytes.
def clearDirty (s : SwapStore) : SwapStore :=
  { s with map := { s.map with bytes := s.map.bytes.drop 0 (s.bitmapLen / Page.size) } }

def ones (b : UInt8) : Nat := (List.range 8).countP fun k => b.toNat.testBit k

-- How many chunks have a saved copy. Only pages of the bitmap that exist can hold a bit.
def dirtyCount (s : SwapStore) : Nat :=
  ((List.range (s.bitmapLen / Page.size)).map fun page =>
    ((s.map.bytes.frame? page).map fun frame => (frame.toList.map ones).foldr (· + ·) 0).getD 0).foldr (· + ·) 0

def load (s : SwapStore) (offset len : Nat) : Except Failure Bytes := do
  s.checkPayload offset len
  s.map.read (s.bitmapLen + offset) len

def store (s : SwapStore) (offset : Nat) (bytes : Bytes) : Except Failure SwapStore := do
  s.checkPayload offset bytes.size
  pure { s with map := ← s.map.write (s.bitmapLen + offset) bytes }

end SwapStore

end DemandPaging
