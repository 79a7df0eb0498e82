import DemandPaging.Pager.Eviction

set_option autoImplicit false

namespace DemandPaging.Pager

variable [Platform]

-- Has the filler write the bytes of a chunk over what the staging buffer holds; the rest of the last page is zero.
def fillChunk (object : Managed) (chunk : Chunk) : M Bytes := do
  match object.template.filler with
  | none => fail .missingFiller
  | some filler =>
    let stride := object.template.shape.stride
    let old := (← get).staging.first chunk.dataLen
    record (.filling { id := object.id, start := chunk.start, stop := chunk.stop, stride, len := chunk.dataLen })
    modify (·.modifyObject object.id fun o => { o with calls := o.calls + 1 })
    match filler { start := chunk.start, stop := chunk.stop, stride, client := object.template.client } object.calls with
    | .failed code => fail (.populate chunk.start chunk.stop code)
    | .brokeOff => fail (.populate chunk.start chunk.stop Fill.brokeOffCode)
    | .filled byte =>
      count fun c => { c with fills := c.fills + 1 }
      let data := old.mapIdx fun k b => (byte k).getD b
      pure (data ++ Array.replicate (chunk.fillLen - chunk.dataLen) 0)

def restoreChunk (object : Managed) (swap : SwapStore) (chunk : Chunk) : M Bytes := do
  let bytes ← attempt (swap.load chunk.bodyOffset chunk.fillLen)
  count fun c => { c with restores := c.restores + 1 }
  record (.restored object.id chunk.index)
  pure bytes

def sourceChunk (object : Managed) (chunk : Chunk) : M Bytes := do
  let staging ← word ((← get).staging.ensure chunk.fillLen)
  modify fun p => { p with staging }
  let dirty ← match object.swap with
    | none => pure none
    | some swap => do pure (if ← attempt (swap.isDirty chunk.index) then some swap else none)
  let bytes ← match dirty with
    | some swap => restoreChunk object swap chunk
    | none => fillChunk object chunk
  modify fun p => { p with staging := p.staging.overwrite bytes }
  pure bytes

def unrecord (address : Nat) : M Unit := do
  let p ← get
  match p.queue.popNewest with
  | none => breach (.notNewest address)
  | some (newest, queue) =>
    set { p with queue }
    if newest.address = address then
      giveBack newest.len
      setResident (← get).resident
      checkTotals
    else
      breach (.notNewest address)

-- Records a chunk as the newest and installs its bytes. If they cannot all be installed, the record is taken back; a chunk
-- that is there already stays as it is, and whoever waits for it is woken.
def installChunk (host : Host) (id : ObjectId) (base : Nat) (layout : Layout) (chunk : Chunk) (bytes : Bytes) : M Unit := do
  let offset ← word (Word.add layout.headerPadded chunk.bodyOffset)
  let address ← word (Word.add base offset)
  let p ← get
  match p.queue.push { address, len := chunk.fillLen, digest := Digest.of bytes, owner := id, chunk := chunk.index } true with
  | .error why => breach (.queueRefused why)
  | .ok queue =>
    set { p with queue }
    setResident (← word (Word.add p.resident chunk.fillLen))
    match (← get).object? id with
    | none => breach (.vanished id)
    | some object =>
      let (mapping, copied) := object.mapping.install host offset bytes
      modify (·.modifyObject id fun o => { o with mapping })
      match copied with
      | .whole =>
        record (.installed id chunk.index)
        checkTotals
      | .present =>
        unrecord address
        ask host (.wake ⟨address, chunk.fillLen⟩)
      | .refused cause =>
        unrecord address
        fail (.resource "UFFDIO_COPY" cause)

-- Answers the fault at the start of a page. The page need not be missing any more.
def resolve (host : Host) (address : Nat) : M Unit := do
  count fun c => { c with faults := c.faults + 1 }
  let p ← get
  match p.index.find? address with
  | none => fail (.unknownFaultAddress address)
  | some entry =>
    let id := entry.owner
    match p.object? id with
    | none => breach (.untracked id)
    | some object =>
      let layout := object.layout
      let offset ← word (Word.sub address entry.base)
      if offset < layout.headerPadded then
        ask host (.zero ⟨address, Page.size⟩)
        modify (·.modifyObject id fun o =>
          { o with mapping := { o.mapping with bytes := o.mapping.bytes.supply (offset / Page.size) } })
      else
        match ← word (layout.chunkAt (offset - layout.headerPadded)) with
        | none => breach (.pastBody address id)
        | some chunk =>
          if p.settings.high < chunk.fillLen then
            fail (.chunkExceedsBudget chunk.fillLen p.settings.high)
          makeRoom host chunk.fillLen
          match (← get).object? id with
          | none => breach (.vanished id)
          | some object =>
            let bytes ← sourceChunk object chunk
            installChunk host id entry.base layout chunk bytes

end DemandPaging.Pager
