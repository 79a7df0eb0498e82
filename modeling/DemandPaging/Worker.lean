import DemandPaging.Pager.Fault
import DemandPaging.Pager.Objects

/-!
The worker: one pager behind one mailbox. It waits for its bell, then serves every queued request; a shutdown or a fatal
failure ends it, after which the rest of the queue is refused and the mailbox closed. Each call of `advance` is one step,
between which clients may send.
-/

set_option autoImplicit false

namespace DemandPaging

variable [Platform]

abbrev Outcome := Except Failure Unit

inductive Station where
  | waiting
  -- The bell was heard and is about to be silenced.
  | woken
  | serving
  -- Everything is let go of; what is queued is refused.
  | refusing (outcome : Outcome)
  -- The queue was seen empty; the mailbox is about to be closed.
  | closing (outcome : Outcome)
  | closed (outcome : Outcome)

structure Worker where
  pager : Pager
  mailbox : Mailbox
  station : Station
  -- Interrupted waits in a row.
  interrupts : Nat

namespace Worker

def start (settings : Settings) : Except Halt Worker := do
  pure { pager := ← Pager.start settings, mailbox := .empty, station := .waiting, interrupts := 0 }

def outcome? (w : Worker) : Option Outcome :=
  match w.station with
  | .closed outcome => some outcome
  | _ => none

-- Ends the worker: the pager lets go of everything, and refusing begins.
def finish (w : Worker) (outcome : Outcome) : Worker :=
  { w with pager := w.pager.teardown (match outcome with | .ok _ => false | .error _ => true), station := .refusing outcome }

-- A defect of the pager ends the worker at once: its memory and its mailbox go away.
def crash (w : Worker) : Worker :=
  { w with
    pager := { w.pager with objects := [], watched := [], remains := [] }
    mailbox := w.mailbox.close
    station := .closed (.error .workerCrashed) }

-- A failed request does not end the worker unless it shows that something is wrong inside.
def endsWorker : Failure → Bool
  | .chunkExceedsBudget _ _ => false
  | failure => failure.isFatal

def conclude (w : Worker) (ticket : Nat) : EStateM.Result Halt Pager Reply → Worker
  | .ok reply pager => { w with pager, mailbox := w.mailbox.answer ticket reply }
  | .error (.failed failure) pager =>
    if endsWorker failure then
      finish { w with pager, mailbox := w.mailbox.answer ticket (.failed failure.copy) } (.error failure)
    else
      { w with pager, mailbox := w.mailbox.answer ticket (.failed failure) }
  | .error (.arithmetic _) pager => crash { w with pager, mailbox := w.mailbox.drop ticket }
  | .error (.assertion _) pager => crash { w with pager, mailbox := w.mailbox.drop ticket }

def serve (host : Host) (w : Worker) (ticket : Nat) : Request → Worker
  | .allocate id template => w.conclude ticket ((do pure (Reply.granted (← Pager.allocate host id template))).run w.pager)
  | .free id => w.conclude ticket ((do Pager.free id; pure Reply.done).run w.pager)
  | .reset id => w.conclude ticket ((do Pager.reset host id; pure Reply.done).run w.pager)
  | .shutdown => finish { w with mailbox := w.mailbox.drop ticket } (.ok ())

-- A wait in which nothing rang is over. Too many in a row that were interrupted end the worker.
def idle (w : Worker) : Waited → Worker
  | .timedOut => { w with interrupts := 0 }
  | .interrupted =>
    if w.pager.settings.maxInterrupts < w.interrupts + 1 then
      w.finish (.error (.resource "epoll_wait" (.numbered SystemError.interruptedCall)))
    else
      { w with interrupts := w.interrupts + 1 }
  | .failed cause => w.finish (.error (.resource "epoll_wait" cause))

def advance (host : Host) (w : Worker) : Worker :=
  match w.station with
  | .waiting =>
    if w.mailbox.bell.isRung then
      { w with station := .woken, interrupts := 0 }
    else
      w.idle (host.wait w.pager.settings.waitMillis)
  | .woken => { w with mailbox := w.mailbox.silence.2, station := .serving }
  | .serving =>
    match w.mailbox.next with
    | none => { w with station := .waiting }
    | some (ticket, request, mailbox) => serve host { w with mailbox } ticket request
  | .refusing outcome =>
    match w.mailbox.next with
    | none => { w with station := .closing outcome }
    | some (ticket, request, mailbox) => { w with mailbox := mailbox.refuse ticket request }
  | .closing outcome => { w with mailbox := w.mailbox.close, station := .closed outcome }
  | .closed _ => w

def run (host : Host) : Nat → Worker → Worker
  | 0, w => w
  | steps + 1, w => run host steps (w.advance host)

def settle (host : Host) (w : Worker) : Worker := run host (w.mailbox.queue.length + 6) w

def send (w : Worker) (request : Request) : Except Failure Unit × Worker :=
  let (sent, mailbox) := w.mailbox.send request
  (sent, { w with mailbox })

-- Sends a request and waits for what becomes of it.
def call (host : Host) (w : Worker) (request : Request) : Reply × Worker :=
  let ticket := w.mailbox.tickets.size
  match w.send request with
  | (.error failure, w) => (.failed failure, w)
  | (.ok _, w) =>
    let w := w.settle host
    ((w.mailbox.received? ticket).getD request.fallback, w)

def fault (host : Host) (w : Worker) (address : Nat) : Worker :=
  let w := { w with interrupts := 0 }
  match (Pager.resolve host (address / Page.size * Page.size)).run w.pager with
  | .ok _ pager => { w with pager }
  | .error (.failed failure) pager => finish { w with pager } (.error failure)
  | .error (.arithmetic _) pager => crash { w with pager }
  | .error (.assertion _) pager => crash { w with pager }

def mappings (w : Worker) : List Mapping := w.pager.objects.map Managed.mapping ++ w.pager.remains

def mappingAt? (w : Worker) (address : Nat) : Option Mapping := w.mappings.find? fun m => m.holds address

def modifyMapping (w : Worker) (address : Nat) (f : Mapping → Mapping) : Worker :=
  let change (m : Mapping) : Mapping := if m.holds address then f m else m
  { w with pager := { w.pager with
      objects := w.pager.objects.map fun o => { o with mapping := change o.mapping }
      remains := w.pager.remains.map change } }

-- A touch of an address by a client. If it is a fault, the worker answers it before the touch goes on.
def touch (host : Host) (w : Worker) (address : Nat) : Worker :=
  match w.mappingAt? address with
  | none => w
  | some m =>
    if m.isPresent (address - m.base) || !w.pager.watched.contains m.span then w else (w.fault host address).settle host

def read (host : Host) (w : Worker) (address : Nat) : Nat → Bytes × Worker
  | 0 => (#[], w)
  | count + 1 =>
    let (before, w) := read host w address count
    let w := w.touch host (address + count)
    match w.mappingAt? (address + count) with
    | none => (before, w)
    | some m => (before.push (m.bytes.byte (address + count - m.base)), w)

def write (host : Host) (w : Worker) (address : Nat) : List UInt8 → Worker
  | [] => w
  | b :: rest =>
    let w := w.touch host address
    let w := w.modifyMapping address fun m => { m with bytes := m.bytes.setByte (address - m.base) b }
    write host w (address + 1) rest

-- The system takes a page away without telling the worker.
def discard (w : Worker) (address : Nat) : Worker :=
  w.modifyMapping address fun m => { m with bytes := m.bytes.drop ((address - m.base) / Page.size) 1 }

end Worker

end DemandPaging
