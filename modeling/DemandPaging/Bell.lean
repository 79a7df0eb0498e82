import DemandPaging.Word

set_option autoImplicit false

namespace DemandPaging

structure Bell where
  rings : Nat
deriving DecidableEq, Repr

namespace Bell

def silent : Bell := ⟨0⟩

instance : Inhabited Bell := ⟨silent⟩

-- A count that cannot rise any more still means that the bell was rung.
def ring (b : Bell) : Bell := ⟨min (b.rings + 1) (Word.limit - 2)⟩

def isRung (b : Bell) : Bool := 0 < b.rings

def silence (b : Bell) : Bool × Bell := (b.isRung, silent)

end Bell

inductive Wake where
  | timedOut
  | ready (fault control : Bool)
deriving DecidableEq, Repr

def Wake.of (fault control : Bell) : Wake :=
  if fault.isRung || control.isRung then .ready fault.isRung control.isRung else .timedOut

end DemandPaging
