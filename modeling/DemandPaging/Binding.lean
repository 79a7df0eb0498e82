import DemandPaging.Service

set_option autoImplicit false

namespace DemandPaging.Binding

variable [Platform]

abbrev Status := Int

def ok : Status := Failure.Code.ok.status

def misuse : Status := Failure.Code.misuse.status

def statusOf {α : Type} : Except Failure α → Status
  | .ok _ => ok
  | .error failure => failure.status

structure Usage where
  init : Nat
  create : Nat
  destroy : Nat
  shutdown : Nat
deriving DecidableEq, Repr

def Usage.zero : Usage := ⟨0, 0, 0, 0⟩

-- What a foreign filler is given: its data, and the run of elements. It returns a status and writes bytes.
structure ForeignFill where
  status : Int
  byte : Nat → Option UInt8

abbrev ForeignFiller := Option ClientData → Nat → Nat → ForeignFill

-- A foreign filler as a filler: any status but zero is a failure.
def adapt (f : ForeignFiller) : Filler := fun request _ =>
  let fill := f request.client request.start request.stop
  if fill.status = 0 then .filled fill.byte else .failed fill.status

def makeTemplate (headerSize elementCount stride minLoad : Nat) : Option Template :=
  match Shape.accept headerSize elementCount stride minLoad with
  | .ok shape => some (.ofShape shape)
  | .error _ => none

def setFiller (t : Option Template) (f : Option ForeignFiller) : Status × Option Template :=
  match t, f with
  | some t, some f => (ok, some { t with filler := some (adapt f) })
  | t, _ => (misuse, t)

def setClient (t : Option Template) (data : ClientData) : Status × Option Template :=
  match t with
  | some t => (ok, some { t with client := some data })
  | none => (misuse, none)

def setReadOnly (t : Option Template) : Status × Option Template :=
  match t with
  | some t => (ok, some { t with readOnly := true })
  | none => (misuse, none)

def setLimits (s : Option Service) (high low : Nat) : Status × Option Service :=
  match s with
  | none => (misuse, none)
  | some s =>
    match s.setLimits high low with
    | .ok s => (ok, some s)
    | .error failure => (failure.status, some s)

def init (u : Usage) (s : Option Service) : Usage × Except Halt (Status × Option Service) :=
  ({ u with init := u.init + 1 },
    match s with
    | none => .ok (misuse, none)
    | some s =>
      match s.init with
      | .ok s => .ok (ok, some s)
      | .error (.failed failure) => .ok (failure.status, some s)
      | .error halt => .error halt)

-- The status of a shutdown; `none` if the call never returns.
def shutdown (u : Usage) (s : Option Service) (wait : Bool) : Usage × Option (Status × Option Service) :=
  ({ u with shutdown := u.shutdown + 1 },
    match s with
    | none => some (misuse, none)
    | some s => (s.shutdown wait).map fun (outcome, s) => (statusOf outcome, some s))

def await (s : Option Service) : Option (Status × Option Service) :=
  match s with
  | none => some (misuse, none)
  | some s => s.await.map fun (outcome, s) => (statusOf outcome, some s)

-- The status of a creation, and the object if there is one. Without a place for the result the call is misuse.
def create (u : Usage) (s : Option Service) (t : Option Template) (hasSlot : Bool) :
    Usage × Except Halt (Status × Option ObjectHandle × Option Service) :=
  ({ u with create := u.create + 1 },
    if !hasSlot then
      .ok (misuse, none, s)
    else
      match s, t with
      | some s, some t =>
        match s.create t with
        | (.ok h, s) => .ok (ok, some h, some s)
        | (.error (.failed failure), s) => .ok (failure.status, none, some s)
        | (.error halt, _) => .error halt
      | s, _ => .ok (misuse, none, s))

def reset (s : Service) (h : Option ObjectHandle) : Status × Service :=
  match h with
  | none => (misuse, s)
  | some h =>
    let (result, s) := s.reset h
    (statusOf result, s)

def destroy (u : Usage) (s : Service) (h : Option ObjectHandle) : Usage × Status × Service :=
  ({ u with destroy := u.destroy + 1 },
    match h with
    | none => (ok, s)
    | some h =>
      let (result, s) := s.destroy h
      (statusOf result, s))

end DemandPaging.Binding
