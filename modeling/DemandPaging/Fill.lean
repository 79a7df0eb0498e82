import DemandPaging.Word

set_option autoImplicit false

namespace DemandPaging

inductive ClientData where
  | word32 (value : Nat)
  | word64 (value : Nat)
  | record (fields : List Int)
deriving DecidableEq, Repr

def ClientData.word32? : ClientData → Option Nat
  | .word32 value => some value
  | _ => none

def ClientData.word64? : ClientData → Option Nat
  | .word64 value => some value
  | _ => none

-- A run of elements, from `start` up to but not including `stop`, each of `stride` bytes.
structure FillRequest where
  start : Nat
  stop : Nat
  stride : Nat
  client : Option ClientData
deriving DecidableEq, Repr

def FillRequest.count (r : FillRequest) : Except Word.Fault Nat := Word.sub r.stop r.start

inductive Fill where
  -- The byte for each place of the buffer; `none` leaves the place as it was.
  | filled (byte : Nat → Option UInt8)
  | failed (code : Int)
  | brokeOff

-- A filler sees the request and how many requests for the object came before it.
abbrev Filler := FillRequest → Nat → Fill

def Fill.brokeOffCode : Int := -2147483648

end DemandPaging
