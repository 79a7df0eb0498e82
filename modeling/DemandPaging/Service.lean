import DemandPaging.Worker

set_option autoImplicit false

namespace DemandPaging

variable [Platform]

inductive Phase where
  | uninitialized
  | running
  | shuttingDown
  | stopped
deriving DecidableEq, Repr

def Phase.text : Phase → String
  | .uninitialized => "Uninitialized"
  | .running => "Running"
  | .shuttingDown => "ShuttingDown"
  | .stopped => "Stopped"

inductive Ending where
  | notStarted
  | pending
  | collected (outcome : Outcome)

def Outcome.copy : Outcome → Outcome
  | .ok _ => .ok ()
  | .error failure => .error failure.copy

def Reply.forCreate : Reply → Except Failure Grant
  | .granted grant => .ok grant
  | .done => .error .shuttingDown
  | .failed failure => .error failure

def Reply.forReset : Reply → Except Failure Unit
  | .failed failure => .error failure
  | _ => .ok ()

-- The same for a caller who gave an object back. After a shutdown its memory is gone already, which is as good.
def Reply.forDestroy : Reply → Except Failure Unit
  | .failed .shuttingDown => .ok ()
  | .failed failure => .error failure
  | _ => .ok ()

structure Service where
  host : Host
  phase : Phase
  settings : Settings
  ending : Ending
  nextId : Nat
  worker : Option Worker

structure ObjectHandle where
  id : ObjectId
  base : Nat
  layout : Layout
deriving DecidableEq, Repr

namespace ObjectHandle

-- The address of the first header byte. The header stands right before the body.
def header (h : ObjectHandle) : Nat := h.base + (h.layout.headerPadded - h.layout.headerSize)

def body (h : ObjectHandle) : Nat := h.base + h.layout.headerPadded

end ObjectHandle

namespace Service

def new (host : Host) (settings : Settings) : Service where
  host
  phase := .uninitialized
  settings
  ending := .notStarted
  nextId := 1
  worker := none

def counters (s : Service) : Counters := (s.worker.map fun w => w.pager.counters).getD .zero

def fills (s : Service) : List FillCall := (s.worker.map fun w => w.pager.fills).getD []

def debugText (s : Service) : String :=
  "Instance \x7b state: " ++ s.phase.text ++ ", stats: " ++ s.counters.debugText ++ " \x7d"

def isServing (s : Service) : Bool :=
  match s.worker with
  | none => false
  | some w => w.outcome?.isNone

def settle (s : Service) : Service := { s with worker := s.worker.map fun w => w.settle s.host }

def setLimits (s : Service) (high low : Nat) : Except Failure Service := do
  Settings.checkLimits high low
  match s.phase with
  | .uninitialized => pure { s with settings := s.settings.withLimits high low }
  | _ => throw .limitsAfterInit

def init (s : Service) : Except Halt Service := do
  match s.phase with
  | .uninitialized =>
    let worker ← Worker.start s.settings
    pure { s with phase := .running, ending := .pending, worker := some worker }
  | _ => throw (.failed .alreadyInitialized)

def channel (s : Service) : Except Failure Unit :=
  match s.phase with
  | .running => .ok ()
  | .uninitialized => .error .notInitialized
  | .shuttingDown | .stopped => .error .shuttingDown

def call (s : Service) (request : Request) : Reply × Service :=
  match s.worker with
  | none => (.failed .notInitialized, s)
  | some w =>
    let (reply, w) := w.call s.host request
    (reply, { s with worker := some w })

def sizeOf (template : Template) : Except Halt Nat := do
  if template.filler.isNone then
    throw (.failed .missingFiller)
  let size ← Halt.ofWord template.layout.trueSize
  if size = 0 then
    throw (.failed .emptyObject)
  pure size

def create (s : Service) (template : Template) : Except Halt ObjectHandle × Service :=
  match sizeOf template with
  | .error halt => (.error halt, s)
  | .ok _ =>
    match s.channel with
    | .error failure => (.error (.failed failure), s)
    | .ok _ =>
      let id : ObjectId := ⟨s.nextId⟩
      let (reply, s) := { s with nextId := s.nextId + 1 }.call (.allocate id template)
      match reply.forCreate with
      | .ok grant => (.ok { id, base := grant.base, layout := template.layout }, s)
      | .error failure => (.error (.failed failure), s)

def reset (s : Service) (h : ObjectHandle) : Except Failure Unit × Service :=
  let (reply, s) := s.call (.reset h.id)
  (reply.forReset, s)

def destroy (s : Service) (h : ObjectHandle) : Except Failure Unit × Service :=
  let (reply, s) := s.call (.free h.id)
  (reply.forDestroy, s)

-- Waits for the worker to end and returns how it ended; `none` if it never will by itself.
def await (s : Service) : Option (Outcome × Service) :=
  match s.phase with
  | .uninitialized => some (.error .notInitialized, s)
  | _ =>
    match s.ending with
    | .notStarted => some (.ok (), s)
    | .collected outcome => some (outcome, { s with ending := .collected outcome.copy })
    | .pending =>
      let s := s.settle
      (s.worker.bind Worker.outcome?).map fun outcome =>
        (outcome, { s with ending := .collected outcome.copy, phase := .stopped })

def requestStop (s : Service) : Service :=
  match s.phase with
  | .uninitialized => { s with phase := .stopped }
  | .running =>
    { s with phase := .shuttingDown, worker := s.worker.map fun w => (w.send .shutdown).2 }
  | .shuttingDown | .stopped => s

def shutdown (s : Service) (wait : Bool) : Option (Outcome × Service) :=
  match s.phase with
  | .uninitialized | .stopped => some (.ok (), s.requestStop)
  | .running | .shuttingDown => if wait then s.requestStop.await else some (.ok (), s.requestStop)

def close (s : Service) : Service := { s.requestStop.settle with ending := .notStarted }

def read (s : Service) (address count : Nat) : Bytes × Service :=
  match s.worker with
  | none => (#[], s)
  | some w =>
    let (bytes, w) := w.read s.host address count
    (bytes, { s with worker := some w })

def write (s : Service) (address : Nat) (bytes : List UInt8) : Service :=
  { s with worker := s.worker.map fun w => w.write s.host address bytes }

def discard (s : Service) (address : Nat) : Service :=
  { s with worker := s.worker.map fun w => w.discard address }

end Service

end DemandPaging
