import DemandPaging.Bell
import DemandPaging.Template

set_option autoImplicit false

namespace DemandPaging

variable [Platform]

inductive Request where
  | allocate (id : ObjectId) (template : Template)
  | free (id : ObjectId)
  | reset (id : ObjectId)
  | shutdown

structure Grant where
  base : Nat
  size : Nat
deriving DecidableEq, Repr

inductive Reply where
  | granted (grant : Grant)
  | done
  | failed (failure : Failure)
deriving DecidableEq, Repr

-- The reply to a request that will not be served. A free succeeds: the whole range goes away in any case.
def Request.refusal? : Request → Option Reply
  | .allocate _ _ => some (.failed .shuttingDown)
  | .reset _ => some (.failed .shuttingDown)
  | .free _ => some .done
  | .shutdown => none

-- What the sender makes of a request that was dropped without a reply.
def Request.fallback : Request → Reply
  | .free _ => .done
  | _ => .failed .shuttingDown

namespace Mailbox

inductive Progress where
  | queued
  -- Taken out by the worker and not yet settled.
  | held
  | answered (reply : Reply)
  | dropped
deriving DecidableEq, Repr

structure Ticket where
  request : Request
  progress : Progress

end Mailbox

structure Mailbox where
  -- One ticket for each request ever sent, those included that did not get in.
  tickets : Array Mailbox.Ticket
  -- Numbers of the tickets that wait to be taken out, oldest first.
  queue : List Nat
  bell : Bell
  isOpen : Bool

namespace Mailbox

def empty : Mailbox where
  tickets := #[]
  queue := []
  bell := .silent
  isOpen := true

instance : Inhabited Mailbox := ⟨empty⟩

-- What the sender of a request is told; `none` while it has to wait.
def received? (m : Mailbox) (ticket : Nat) : Option Reply :=
  match m.tickets[ticket]? with
  | some ⟨_, .answered reply⟩ => some reply
  | some ⟨request, .dropped⟩ => some request.fallback
  | _ => none

def setProgress (m : Mailbox) (ticket : Nat) (progress : Progress) : Mailbox :=
  { m with tickets := m.tickets.modify ticket fun t => { t with progress } }

def enqueue (m : Mailbox) (request : Request) : Mailbox :=
  if m.isOpen then
    { m with tickets := m.tickets.push ⟨request, .queued⟩, queue := m.queue ++ [m.tickets.size] }
  else
    { m with tickets := m.tickets.push ⟨request, .dropped⟩ }

def ring (m : Mailbox) : Mailbox := { m with bell := m.bell.ring }

def send (m : Mailbox) (request : Request) : Except Failure Unit × Mailbox :=
  if m.isOpen then (.ok (), (m.enqueue request).ring) else (.error .shuttingDown, m.enqueue request)

def silence (m : Mailbox) : Bool × Mailbox :=
  let (rung, bell) := m.bell.silence
  (rung, { m with bell })

def next (m : Mailbox) : Option (Nat × Request × Mailbox) :=
  match m.queue with
  | [] => none
  | ticket :: queue =>
    (m.tickets[ticket]?).map fun t => (ticket, t.request, ({ m with queue }).setProgress ticket .held)

def answer (m : Mailbox) (ticket : Nat) (reply : Reply) : Mailbox := m.setProgress ticket (.answered reply)

def drop (m : Mailbox) (ticket : Nat) : Mailbox := m.setProgress ticket .dropped

def refuse (m : Mailbox) (ticket : Nat) (request : Request) : Mailbox :=
  match request.refusal? with
  | some reply => m.answer ticket reply
  | none => m.drop ticket

def close (m : Mailbox) : Mailbox :=
  { m.queue.foldl drop m with queue := [], isOpen := false }

end Mailbox

end DemandPaging
