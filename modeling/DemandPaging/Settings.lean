import DemandPaging.Failure
import DemandPaging.Text.Path

set_option autoImplicit false

namespace DemandPaging

structure Settings where
  -- Resident bytes never pass this.
  high : Nat
  -- Eviction goes on until resident bytes are down to this.
  low : Nat
  queueCapacity : Nat
  stagingPages : Nat
  -- The longest single wait, in milliseconds.
  waitMillis : Nat
  -- Interrupted waits in a row that are tolerated.
  maxInterrupts : Nat
  swapDirectory : String
deriving DecidableEq, Repr

namespace Settings

def standard (swapDirectory : String) : Settings where
  high := 2 * 1024 * 1024 * 1024
  low := 1024 * 1024 * 1024
  queueCapacity := 1024
  stagingPages := 20
  waitMillis := 200
  maxInterrupts := 3
  swapDirectory

def checkLimits (high low : Nat) : Except Failure Unit :=
  if high ≤ low then .error (.invalidWatermarks high low) else .ok ()

def validate (s : Settings) : Except Failure Unit := checkLimits s.high s.low

-- Whether two settings agree; a directory may be written in more than one way.
def sameAs (a b : Settings) : Bool :=
  Text.pathSteps a.swapDirectory = Text.pathSteps b.swapDirectory && { a with swapDirectory := b.swapDirectory } = b

def withLimits (s : Settings) (high low : Nat) : Settings := { s with high, low }

end Settings

end DemandPaging
