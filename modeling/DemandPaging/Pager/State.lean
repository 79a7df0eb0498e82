import DemandPaging.Counters
import DemandPaging.Digest
import DemandPaging.Settings
import DemandPaging.StagingBuffer
import DemandPaging.SwapStore
import DemandPaging.Template

set_option autoImplicit false

namespace DemandPaging

variable [Platform]

-- A chunk that was installed. Once the chunk has been given up by its object, `len` is zero.
structure Residency where
  address : Nat
  len : Nat
  digest : Digest
  owner : ObjectId
  chunk : Nat
deriving DecidableEq, Repr, Inhabited

def Residency.width : Nat := 48

structure Managed where
  id : ObjectId
  mapping : Mapping
  layout : Layout
  template : Template
  -- Read-only objects and objects without a body have none.
  swap : Option SwapStore
  calls : Nat

structure FillCall where
  id : ObjectId
  start : Nat
  stop : Nat
  stride : Nat
  len : Nat
deriving DecidableEq, Repr

inductive Event where
  | filling (call : FillCall)
  | restored (id : ObjectId) (chunk : Nat)
  | installed (id : ObjectId) (chunk : Nat)
  | reclaimed (id : ObjectId) (chunk : Nat) (saved : Bool)
  | reset (id : ObjectId)
deriving DecidableEq, Repr

structure Pager where
  settings : Settings
  index : AddressMap ObjectId
  objects : List Managed
  queue : CircularQueue Residency
  staging : StagingBuffer
  resident : Nat
  counters : Counters
  -- Ranges in which a touch of a missing page is a fault.
  watched : List Span
  -- Memory of objects that outlived a pager which failed.
  remains : List Mapping
  -- What happened to chunks, newest first.
  journal : List Event

namespace Pager

abbrev M := EStateM Halt Pager

def start (settings : Settings) : Except Halt Pager := do
  Halt.ofFailure settings.validate
  let queue ← Halt.ofWord (CircularQueue.tryNew settings.queueCapacity Residency.width)
  let stagingLen ← Halt.ofWord (Word.mul (max settings.stagingPages 1) Page.size)
  let staging ← Halt.ofWord (StagingBuffer.ofSize stagingLen)
  pure {
    settings
    index := .empty
    objects := []
    queue
    staging
    resident := 0
    counters := .zero
    watched := []
    remains := []
    journal := [] }

variable {α : Type}

def fail (failure : Failure) : M α := throw (.failed failure)

def breach (b : Breach) : M α := fail (.invariant b)

def lift : Except Halt α → M α
  | .ok a => pure a
  | .error halt => throw halt

def word (e : Except Word.Fault α) : M α := lift (Halt.ofWord e)

def attempt (e : Except Failure α) : M α := lift (Halt.ofFailure e)

def ask (host : Host) (call : SystemCall) : M Unit := attempt (host.ask call)

def object? (p : Pager) (id : ObjectId) : Option Managed := p.objects.find? fun o => o.id = id

def modifyObject (p : Pager) (id : ObjectId) (f : Managed → Managed) : Pager :=
  { p with objects := p.objects.map fun o => if o.id = id then f o else o }

def fills (p : Pager) : List FillCall :=
  p.journal.reverse.filterMap fun
    | .filling call => some call
    | _ => none

def spans (p : Pager) : List Span :=
  p.objects.flatMap fun o => o.mapping.span :: (o.swap.map fun s => s.map.span).toList

def count (f : Counters → Counters) : M Unit := modify fun p => { p with counters := f p.counters }

def record (event : Event) : M Unit := modify fun p => { p with journal := event :: p.journal }

def setResident (n : Nat) : M Unit := modify fun p => { p with resident := n, counters := p.counters.setResident n }

def queuedBytes (p : Pager) : Nat := (p.queue.toList.map Residency.len).foldr (· + ·) 0

def checkTotals : M Unit := do
  let p ← get
  if p.queuedBytes ≠ p.resident then
    throw (.assertion "ring records disagree with resident bytes")
  if p.settings.high < p.resident then
    throw (.assertion "resident bytes above the high watermark")

def giveBack (len : Nat) : M Unit := do
  let p ← get
  if len ≤ p.resident then
    set { p with resident := p.resident - len }
  else
    breach .residentUnderflow

end Pager

end DemandPaging
