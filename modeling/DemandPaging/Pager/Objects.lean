import DemandPaging.Mailbox
import DemandPaging.Pager.State

set_option autoImplicit false

namespace DemandPaging.Pager

variable [Platform]

def unwatch (span : Span) : M Unit := modify fun p => { p with watched := p.watched.erase span }

-- Touches of missing pages in the span become faults, if the system can answer them there.
def watch (host : Host) (span : Span) : M Unit := do
  ask host (.watch span)
  modify fun p => { p with watched := span :: p.watched }
  if !host.supports span then
    unwatch span
    fail (.resource (SystemCall.watch span).text
      (.described .unsupported "range does not support copy, zero-page and wake"))

-- The first chunk is the largest; it must fit the budget.
def checkFirstChunk (layout : Layout) : M Unit := do
  let p ← get
  if 0 < layout.elementCount then
    let first ← word (layout.chunk 0)
    if p.settings.high < first.fillLen then
      fail (.chunkExceedsBudget first.fillLen p.settings.high)

def zeroHeader (host : Host) (base : Nat) (layout : Layout) : M Unit :=
  if 0 < layout.headerPadded then ask host (.zero ⟨base, layout.headerPadded⟩) else pure ()

def openSwap (host : Host) (template : Template) (used : List Span) : M (Option SwapStore) := do
  if template.readOnly || template.layout.bodyLen == 0 then
    pure none
  else
    let p ← get
    pure (some (← lift (SwapStore.create host used p.settings.swapDirectory template.layout)))

def enter (id : ObjectId) (mapping : Mapping) : M Unit := do
  let p ← get
  match p.index.insert mapping.base mapping.len id with
  | .error why => breach (.freshMapping mapping.base why)
  | .ok index =>
    if index.inOrder then
      set { p with index }
    else
      throw (.assertion "range index out of order")

def allocate (host : Host) (id : ObjectId) (template : Template) : M Grant := do
  let layout := template.layout
  checkFirstChunk layout
  let size ← word layout.trueSize
  let used := (← get).spans
  let fresh ← attempt (Mapping.anonymous host used size)
  watch host fresh.span
  let mapping := { fresh with bytes := fresh.bytes.zero 0 (layout.headerPadded / Page.size) }
  let swap ← tryCatch
    (do
      zeroHeader host fresh.base layout
      let swap ← openSwap host template (mapping.span :: used)
      enter id mapping
      pure swap)
    (fun halt => do
      unwatch fresh.span
      throw halt)
  modify fun p =>
    { p with objects := { id, mapping, layout, template, swap, calls := 0 } :: p.objects.filter fun o => o.id ≠ id }
  let p ← get
  count fun c => c.setLive p.objects.length
  pure { base := mapping.base, size }

-- Retires the records of an object: their bytes are resident no more.
def retire (id : ObjectId) : M Unit := do
  let p ← get
  let owned := p.queue.toList.filter fun r => r.owner = id && 0 < r.len
  let (resident, short) := owned.foldl
    (fun (n, short) r => if r.len ≤ n then (n - r.len, short) else (n, true)) (p.resident, false)
  set { p with resident, queue := p.queue.map fun r => if r.owner = id then { r with len := 0 } else r }
  if short then
    breach .residentUnderflow

def free (id : ObjectId) : M Unit := do
  let p ← get
  match p.object? id with
  | none => fail (.unknownObject id.number)
  | some object =>
    set { p with objects := p.objects.filter fun o => o.id ≠ id }
    unwatch object.mapping.span
    match p.index.remove object.mapping.base with
    | .error _ => breach (.unindexed id)
    | .ok (_, index) =>
      modify fun p => { p with index }
      retire id
      let p ← get
      setResident p.resident
      count fun c => c.setLive p.objects.length
      checkTotals

def reset (host : Host) (id : ObjectId) : M Unit := do
  match (← get).object? id with
  | none => fail (.unknownObject id.number)
  | some object =>
    retire id
    let released ← attempt (object.mapping.release host object.layout.headerPadded object.layout.bodyReserved)
    modify (·.modifyObject id fun o => { o with mapping := released, swap := o.swap.map SwapStore.clearDirty })
    setResident (← get).resident
    record (.reset id)
    checkTotals

-- Lets go of everything. After a failure a client may still be waiting for a page: the memory of the objects then
-- stays, no longer watched, and the touch goes on as on plain memory.
def teardown (p : Pager) (failed : Bool) : Pager :=
  { p with
    index := p.index.drain.2
    objects := []
    queue := .withCapacity 1
    resident := 0
    counters := (p.counters.setResident 0).setLive 0
    watched := []
    remains := if failed then p.objects.map Managed.mapping else [] }

end DemandPaging.Pager
