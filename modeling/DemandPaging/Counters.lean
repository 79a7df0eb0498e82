set_option autoImplicit false

namespace DemandPaging

structure Counters where
  faults : Nat
  fills : Nat
  restores : Nat
  -- Changed chunks saved before they were evicted.
  writebacks : Nat
  reclaims : Nat
  residentBytes : Nat
  peakResidentBytes : Nat
  liveObjects : Nat
deriving DecidableEq, Repr

namespace Counters

def zero : Counters := ⟨0, 0, 0, 0, 0, 0, 0, 0⟩

instance : Inhabited Counters := ⟨zero⟩

def setResident (c : Counters) (n : Nat) : Counters :=
  { c with residentBytes := n, peakResidentBytes := max c.peakResidentBytes n }

def setLive (c : Counters) (n : Nat) : Counters := { c with liveObjects := n }

def fields (c : Counters) : List (String × Nat) :=
  [("faults", c.faults), ("populate_calls", c.fills), ("restores", c.restores), ("writebacks", c.writebacks),
    ("reclaims", c.reclaims), ("resident_bytes", c.residentBytes), ("peak_resident_bytes", c.peakResidentBytes),
    ("live_objects", c.liveObjects)]

def jsonText (c : Counters) : String :=
  "\x7b" ++ String.intercalate "," (c.fields.map fun (name, value) => "\"" ++ name ++ "\":" ++ toString value) ++ "\x7d"

def debugText (c : Counters) : String :=
  "EngineStats \x7b " ++ String.intercalate ", " (c.fields.map fun (name, value) => name ++ ": " ++ toString value) ++ " \x7d"

end Counters

end DemandPaging
