import DemandPaging.Page

/-!
Byte geometry of one object: a header padded in front to whole pages, then the body, cut into chunks of `perChunk` elements
and rounded up to whole pages.

    base            header             body
     |   padding    |   header bytes    |  chunks  ...  | page tail |
     |<-------- headerPadded --------->|<------ bodyReserved ----->|

Every operation is checked word arithmetic, so that a layout with arbitrary fields has an answer too.
-/

set_option autoImplicit false

namespace DemandPaging

variable [Platform]

structure Layout where
  headerSize : Nat
  headerPadded : Nat
  bodyLen : Nat
  bodyReserved : Nat
  elementCount : Nat
  stride : Nat
  perChunk : Nat
deriving DecidableEq, Repr

structure Chunk where
  index : Nat
  start : Nat
  stop : Nat
  bodyOffset : Nat
  dataLen : Nat
  -- `dataLen` rounded up to whole pages: the bytes that a fault installs.
  fillLen : Nat
deriving DecidableEq, Repr

namespace Layout

def trueSize (l : Layout) : Except Word.Fault Nat := Word.add l.headerPadded l.bodyReserved

-- Where the first header byte lies: the padding stands before the header.
def headerOffset (l : Layout) : Except Word.Fault Nat := Word.sub l.headerPadded l.headerSize

def chunkBytes (l : Layout) : Except Word.Fault Nat := Word.mul l.perChunk l.stride

def chunkCount (l : Layout) : Except Word.Fault Nat := Word.ceilDiv l.elementCount l.perChunk

-- The chunk numbered `index`. The last chunk is clipped to the elements there are; later ones are empty.
def chunk (l : Layout) (index : Nat) : Except Word.Fault Chunk := do
  let start := min (Word.mulSat index l.perChunk) l.elementCount
  let stop := min (Word.addSat start l.perChunk) l.elementCount
  let dataLen ← Word.mul (← Word.sub stop start) l.stride
  let bodyOffset ← Word.mul start l.stride
  let fillLen ← Page.roundUpWord dataLen
  pure { index, start, stop, bodyOffset, dataLen, fillLen }

def chunkAt (l : Layout) (offset : Nat) : Except Word.Fault (Option Chunk) := do
  if l.bodyReserved ≤ offset then
    pure none
  else
    pure (some (← l.chunk (← Word.div offset (← l.chunkBytes))))

end Layout

end DemandPaging
