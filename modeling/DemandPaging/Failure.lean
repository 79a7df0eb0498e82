import DemandPaging.AddressMap
import DemandPaging.CircularQueue
import DemandPaging.SystemError
import DemandPaging.Text.Hex

set_option autoImplicit false

namespace DemandPaging

structure ObjectId where
  number : Nat
deriving DecidableEq, Repr, Inhabited

def ObjectId.text (id : ObjectId) : String := "obj#" ++ toString id.number

inductive Breach where
  | freshMapping (base : Nat) (why : AddressMap.Refusal)
  | unindexed (id : ObjectId)
  | untracked (id : ObjectId)
  | pastBody (address : Nat) (id : ObjectId)
  | vanished (id : ObjectId)
  | queueRefused (why : CircularQueue.Refusal)
  | notNewest (address : Nat)
  | residentUnderflow
  | orphanRecord (id : ObjectId)
  | recordBelowBase
  | emptyBody
  | emptyFile
  | chunkOutside (index count : Nat)
  | payloadRange (offset len size : Nat)
  | mappingRange (offset len size : Nat)
  | described (text : String)
deriving DecidableEq, Repr

open Text (hex)

def Breach.message : Breach → String
  | .freshMapping base why => "fresh mapping at " ++ hex base ++ ": " ++ why.message
  | .unindexed id => id.text ++ " missing from the range index"
  | .untracked id => id.text ++ " indexed but not tracked"
  | .pastBody address id => "fault at " ++ hex address ++ " past the body of " ++ id.text
  | .vanished id => id.text ++ " vanished during eviction"
  | .queueRefused why => "eviction ring: " ++ why.message
  | .notNewest address => "newest record is not " ++ hex address
  | .residentUnderflow => "resident bytes underflow"
  | .orphanRecord id => "live record for untracked " ++ id.text
  | .recordBelowBase => "record below its object's base"
  | .emptyBody => "backing store for an empty body"
  | .emptyFile => "shared mapping of an empty file"
  | .chunkOutside index count =>
    "chunk " ++ toString index ++ " outside backing bitmap of " ++ toString count ++ " chunks"
  | .payloadRange offset len size =>
    "backing access " ++ hex offset ++ "+" ++ hex len ++ " past payload of " ++ hex size ++ " bytes"
  | .mappingRange offset len size =>
    "range " ++ hex offset ++ "+" ++ hex len ++ " outside mapping of " ++ hex size ++ " bytes"
  | .described text => text

inductive Failure where
  | invalidStride (stride : Nat)
  | invalidWatermarks (high low : Nat)
  | emptyObject
  | objectTooLarge (headerSize elementCount stride : Nat)
  | missingFiller
  | limitsAfterInit
  | alreadyInitialized
  | notInitialized
  | resource (operation : String) (cause : SystemError)
  | io (cause : SystemError)
  | chunkExceedsBudget (chunk high : Nat)
  | budgetExhausted (needed resident low : Nat)
  | shuttingDown
  | unknownObject (id : Nat)
  | unknownFaultAddress (address : Nat)
  | invariant (breach : Breach)
  | populate (start stop : Nat) (code : Int)
  | workerCrashed
deriving DecidableEq, Repr

namespace Failure

def message : Failure → String
  | .invalidStride stride => "invalid stride " ++ toString stride ++ ": must be at least 1 byte"
  | .invalidWatermarks high low =>
    "invalid memory limits: high watermark " ++ toString high ++ " must exceed low watermark " ++ toString low
  | .emptyObject => "object has no header and no elements"
  | .objectTooLarge headerSize elementCount stride =>
    "object of " ++ toString elementCount ++ " elements of " ++ toString stride ++ " bytes behind a " ++
      toString headerSize ++ "-byte header is too large"
  | .missingFiller => "object configuration has no populate function"
  | .limitsAfterInit => "memory limits can only be set before init"
  | .alreadyInitialized => "instance already initialized"
  | .notInitialized => "instance not initialized"
  | .resource operation cause => operation ++ " failed: " ++ cause.text
  | .io cause => "I/O error: " ++ cause.text
  | .chunkExceedsBudget chunk high =>
    "chunk of " ++ toString chunk ++ " bytes exceeds the high watermark of " ++ toString high ++ " bytes"
  | .budgetExhausted needed resident low =>
    "eviction ring exhausted: need " ++ toString needed ++ " bytes with " ++ toString resident ++
      " resident, low watermark " ++ toString low
  | .shuttingDown => "instance is shutting down"
  | .unknownObject id => "unknown object " ++ toString id
  | .unknownFaultAddress address => "page fault at " ++ hex address ++ " does not belong to any object"
  | .invariant breach => "internal invariant violated: " ++ breach.message
  | .populate start stop code =>
    "populate callback failed for elements " ++ toString start ++ ".." ++ toString stop ++ " with code " ++ toString code
  | .workerCrashed => "fault handler thread panicked"

inductive Class where
  | configuration
  | resource
  | budget
  | protocol
  | invariant
  | populate
deriving DecidableEq, Repr

def Class.text : Class → String
  | .configuration => "Configuration"
  | .resource => "Resource"
  | .budget => "Budget"
  | .protocol => "Protocol"
  | .invariant => "Invariant"
  | .populate => "Populate"

def classify : Failure → Class
  | .invalidStride _ | .invalidWatermarks _ _ | .emptyObject | .objectTooLarge _ _ _ | .missingFiller
  | .limitsAfterInit | .alreadyInitialized | .notInitialized => .configuration
  | .resource _ _ | .io _ => .resource
  | .chunkExceedsBudget _ _ | .budgetExhausted _ _ _ => .budget
  | .shuttingDown | .unknownObject _ => .protocol
  | .unknownFaultAddress _ | .invariant _ | .workerCrashed => .invariant
  | .populate _ _ _ => .populate

-- What a caller who sees numbers only is told.
inductive Code where
  | ok
  | config
  | resource
  | budget
  | shuttingDown
  | unknownObject
  | invariant
  | populate
  | misuse
deriving DecidableEq, Repr

def Code.text : Code → String
  | .ok => "Ok"
  | .config => "Config"
  | .resource => "Resource"
  | .budget => "Budget"
  | .shuttingDown => "ShuttingDown"
  | .unknownObject => "UnknownObject"
  | .invariant => "Invariant"
  | .populate => "Populate"
  | .misuse => "Misuse"

-- Zero is success; every failure is negative.
def Code.status : Code → Int
  | .ok => 0
  | .config => -1
  | .resource => -2
  | .budget => -3
  | .shuttingDown => -4
  | .unknownObject => -5
  | .invariant => -6
  | .populate => -7
  | .misuse => -8

def Class.code : Class → Code
  | .configuration => .config
  | .resource => .resource
  | .budget => .budget
  | .protocol => .shuttingDown
  | .invariant => .invariant
  | .populate => .populate

def code : Failure → Code
  | .limitsAfterInit | .alreadyInitialized | .notInitialized => .misuse
  | .unknownObject _ => .unknownObject
  | f => f.classify.code

def status (f : Failure) : Int := f.code.status

def isFatal (f : Failure) : Bool :=
  match f.classify with
  | .budget | .invariant | .populate => true
  | .configuration | .resource | .protocol => false

-- Whether the caller should clean up by itself and not report a failure.
def isSoft : Failure → Bool
  | .shuttingDown => true
  | _ => false

def hasSource : Failure → Bool
  | .resource _ _ | .io _ => true
  | _ => false

def copy : Failure → Failure
  | .resource operation cause => .resource operation cause.copy
  | .io cause => .io cause.copy
  | f => f

structure Report where
  display : String
  cls : Class
  code : Code
  status : Int
  fatal : Bool
  soft : Bool
  hasSource : Bool
deriving DecidableEq, Repr

def report (f : Failure) : Report where
  display := f.message
  cls := f.classify
  code := f.code
  status := f.status
  fatal := f.isFatal
  soft := f.isSoft
  hasSource := f.hasSource

end Failure

end DemandPaging
