import DemandPaging.Pager.State

set_option autoImplicit false

namespace DemandPaging.Pager

variable [Platform]

def saveChanged (object : Managed) (swap : SwapStore) (offset : Nat) (r : Residency) : M Bool := do
  let current ← attempt (object.mapping.read offset r.len)
  if Digest.of current = r.digest then
    pure false
  else
    let bodyOffset ← word (Word.sub offset object.layout.headerPadded)
    let stored ← attempt (swap.store bodyOffset current)
    let marked ← attempt (stored.setDirty r.chunk)
    modify (·.modifyObject r.owner fun o => { o with swap := some marked })
    count fun c => { c with writebacks := c.writebacks + 1 }
    pure true

def reclaim (host : Host) (r : Residency) : M Unit := do
  let p ← get
  match p.object? r.owner with
  | none => breach (.orphanRecord r.owner)
  | some object =>
    if r.address < object.mapping.base then
      breach .recordBelowBase
    let offset := r.address - object.mapping.base
    let saved ← match object.swap with
      | none => pure false
      | some swap => saveChanged object swap offset r
    let released ← attempt (object.mapping.release host offset r.len)
    modify (·.modifyObject r.owner fun o => { o with mapping := released })
    giveBack r.len
    count fun c => { c with reclaims := c.reclaims + 1 }
    setResident (← get).resident
    record (.reclaimed r.owner r.chunk saved)

-- Gives back the oldest chunks while `incoming` bytes more would pass the low mark. The number bounds how many records are
-- taken; there are no more in the queue.
def evict (host : Host) (incoming : Nat) : Nat → M Unit
  | 0 => do
    let p ← get
    if p.settings.low < (← word (Word.add p.resident incoming)) then
      fail (.budgetExhausted incoming p.resident p.settings.low)
  | records + 1 => do
    let p ← get
    if p.settings.low < (← word (Word.add p.resident incoming)) then
      match p.queue.pop with
      | none => fail (.budgetExhausted incoming p.resident p.settings.low)
      | some (oldest, queue) =>
        set { p with queue }
        if 0 < oldest.len then
          reclaim host oldest
        evict host incoming records

def makeRoom (host : Host) (incoming : Nat) : M Unit := do
  let p ← get
  if p.settings.high < (← word (Word.add p.resident incoming)) then
    evict host incoming p.queue.len

end DemandPaging.Pager
