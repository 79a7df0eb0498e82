import DemandPaging.Proofs.GivingBack

set_option autoImplicit false

namespace DemandPaging

variable [Platform]

theorem StagingBuffer.ensure_fits (s : StagingBuffer) (len : Nat) (positive : 0 < len) (whole : Page.size ∣ len)
    (small : len ≤ Word.maxSize) : ∃ next, s.ensure len = .ok next := by
  have rounded : Page.roundUp (max len 1) = len := by
    rw [Nat.max_eq_left positive, Page.roundUp_of_dvd len whole]
  have room := Page.next_fits len whole small
  obtain ⟨k, rfl⟩ := whole
  have limits : Word.limit = 2 * (Word.maxSize + 1) := by decide
  have capacity : Page.roundUpWord (max (Page.size * k) 1) = .ok (Page.size * k) :=
    Page.roundUpWord_eq_ok.mpr ⟨by omega, rounded.symm⟩
  have taken : Word.add (Page.size * k) Page.size = .ok (Page.size * k + Page.size) :=
    Word.add_eq_ok.mpr ⟨by omega, rfl⟩
  have fits : Word.room (Page.size * k + Page.size - 1) 1 = .ok (Page.size * k + Page.size - 1) :=
    Word.room_eq_ok.mpr ⟨by omega, by omega⟩
  rw [ensure]
  by_cases grows : s.capacity < Page.size * k
  · rw [if_pos grows]
    simp only [ofSize, capacity, taken, fits, bind, Except.bind]
    exact ⟨_, rfl⟩
  · rw [if_neg grows]
    exact ⟨s, rfl⟩

namespace Mapping

variable (host : Host) (m : Mapping) (offset : Nat) (bytes : Bytes)

theorem install_lacking (absent : ∀ page, offset / Page.size ≤ page →
    page < offset / Page.size + Page.count bytes.size → m.bytes.isPresent page = false) :
    m.install host offset bytes =
      ({ m with bytes := (m.bytes.install (offset / Page.size) bytes (Page.count bytes.size)).1 }, .whole) ∨
    host.breakOff ⟨m.base + offset, bytes.size⟩ ≠ none ∧
      ∃ pages cause, m.install host offset bytes =
        ({ m with bytes := (m.bytes.install (offset / Page.size) bytes pages).1 }, .refused cause) := by
  have complete (pages : Nat) (few : pages ≤ Page.count bytes.size) :
      (m.bytes.install (offset / Page.size) bytes pages).2 = true :=
    (SparseBytes.install_absent _ _ _ _ fun page low high => absent page low (by omega)).1
  rw [install]
  cases gives : host.breakOff ⟨m.base + offset, bytes.size⟩ with
  | none => exact .inl (by simp only [complete _ (Nat.le_refl _), if_true])
  | some given =>
      obtain ⟨pages, cause⟩ := given
      by_cases early : pages < Page.count bytes.size
      · refine .inr ⟨Option.some_ne_none _, pages, cause, ?_⟩
        simp only [early, if_true, complete pages (Nat.le_of_lt early)]
      · exact .inl (by simp only [early, if_false, complete _ (Nat.le_refl _), if_true])

theorem install_occupied (some : 0 < Page.count bytes.size) (present : m.bytes.isPresent (offset / Page.size) = true) :
    m.install host offset bytes = (m, .present) ∨
    host.breakOff ⟨m.base + offset, bytes.size⟩ ≠ none ∧ ∃ cause, m.install host offset bytes = (m, .refused cause) := by
  have stops (pages : Nat) (positive : 0 < pages) := SparseBytes.install_present m.bytes _ bytes pages positive present
  rw [install]
  cases gives : host.breakOff ⟨m.base + offset, bytes.size⟩ with
  | none => exact .inl (by simp only [stops _ some, Bool.false_eq_true, if_false])
  | some given =>
      obtain ⟨pages, cause⟩ := given
      by_cases early : pages < Page.count bytes.size
      · cases pages with
        | zero => exact .inr ⟨Option.some_ne_none _, cause, by simp only [early, if_true, SparseBytes.install]⟩
        | succ pages =>
            exact .inl (by simp only [early, if_true, stops _ (Nat.succ_pos pages), Bool.false_eq_true, if_false])
      · exact .inl (by simp only [early, if_false, stops _ some, Bool.false_eq_true])

end Mapping

def Template.Fails (t : Template) (start stop : Nat) (code : Int) : Prop :=
  ∃ filler calls, t.filler = some filler ∧
    (filler { start, stop, stride := t.shape.stride, client := t.client } calls = .failed code ∨
      (filler { start, stop, stride := t.shape.stride, client := t.client } calls = .brokeOff ∧
        code = Fill.brokeOffCode))

-- The request that the filler is given for chunk `i` of an object, as the journal has it.
def Template.call (t : Template) (id : ObjectId) (i : Nat) : FillCall where
  id
  start := (t.shape.piece i).start
  stop := (t.shape.piece i).stop
  stride := t.shape.stride
  len := (t.shape.piece i).dataLen

namespace Managed

def lacks (o : Managed) (i : Nat) : Prop :=
  ∀ page, (o.shape.headerPadded + (o.shape.piece i).bodyOffset) / Page.size ≤ page →
    page < (o.shape.headerPadded + (o.shape.piece i).bodyOffset) / Page.size + Page.count (o.shape.piece i).fillLen →
    o.mapping.bytes.isPresent page = false

def request (o : Managed) (i : Nat) : FillRequest :=
  { start := (o.shape.piece i).start, stop := (o.shape.piece i).stop, stride := o.shape.stride
    client := o.template.client }

-- What a filler makes of a chunk, over the bytes that stood in the staging buffer; the rest of the last page is zero.
def filledBytes (o : Managed) (i : Nat) (old : Bytes) (byte : Nat → Option UInt8) : Bytes :=
  old.mapIdx (fun k b => (byte k).getD b) ++
    Array.replicate ((o.shape.piece i).fillLen - (o.shape.piece i).dataLen) 0

def savedBytes (o : Managed) (i : Nat) (s : SwapStore) : Bytes :=
  s.map.bytes.slice (s.bitmapLen + (o.shape.piece i).bodyOffset) (o.shape.piece i).fillLen

def recordOf (o : Managed) (i : Nat) (bytes : Bytes) : Residency :=
  { address := o.mapping.base + (o.shape.headerPadded + (o.shape.piece i).bodyOffset)
    len := (o.shape.piece i).fillLen, digest := Digest.of bytes, owner := o.id, chunk := i }

def withChunk (o : Managed) (i : Nat) (bytes : Bytes) : Managed :=
  { o with mapping := { o.mapping with
      bytes := (o.mapping.bytes.install ((o.shape.headerPadded + (o.shape.piece i).bodyOffset) / Page.size) bytes
        (Page.count bytes.size)).1 } }

def isSaved (o : Managed) (i : Nat) : Bool := o.swap.any fun s => s.saved i

section

variable (o : Managed) (i : Nat) (bytes : Bytes)

theorem record_of (inside : i < o.shape.chunks) : (o.recordOf i bytes).Of o := ⟨rfl, inside, rfl, rfl⟩

theorem with_chunk_has_body (k : Nat) (inside : i < o.shape.chunks) (body : k < o.shape.bodyReserved)
    (size : bytes.size = (o.shape.piece i).fillLen) (absent : o.lacks i) :
    (o.withChunk i bytes).hasBody k = (decide (k / o.shape.chunkLen = i) || o.hasBody k) := by
  have pages := o.shape.piece_pages i k inside body
  simp only [hasBody, withChunk, Mapping.isPresent]
  rw [size, SparseBytes.present_install _ _ _ _ _ absent]
  congr 1
  exact decide_eq_decide.mpr pages

theorem with_chunk_sound (sound : o.Sound) (size : bytes.size = (o.shape.piece i).fillLen) (absent : o.lacks i) :
    (o.withChunk i bytes).Sound := by
  refine ⟨sound.layout, sound.len, sound.own, fun page header => ?_, sound.store, sound.writable⟩
  simp only [withChunk]
  rw [size, SparseBytes.present_install _ _ _ _ _ absent, sound.header page header, Bool.or_true]

theorem with_chunk_becomes : o.Becomes (o.withChunk i bytes) := ⟨rfl, rfl, rfl, rfl, rfl⟩

end

end Managed

namespace Pager

inductive Sourced (p : Pager) (o : Managed) (i : Nat) : Bytes → Pager → Prop where
  | restored (s : SwapStore) (staging : StagingBuffer) (store : o.swap = some s) (saved : s.saved i = true) :
      Sourced p o i (o.savedBytes i s)
        { p with
          staging
          counters := { p.counters with restores := p.counters.restores + 1 }
          journal := .restored o.id i :: p.journal }
  | filled (filler : Filler) (byte : Nat → Option UInt8) (old : Bytes) (staging : StagingBuffer)
      (unsaved : o.isSaved i = false) (given : o.template.filler = some filler)
      (made : filler (o.request i) o.calls = .filled byte) (size : old.size = (o.shape.piece i).dataLen) :
      Sourced p o i (o.filledBytes i old byte)
        { p with
          staging
          objects := revised p.objects { o with calls := o.calls + 1 }
          counters := { p.counters with fills := p.counters.fills + 1 }
          journal := .filling (o.template.call o.id i) :: p.journal }

def Fruitless (p : Pager) (id : ObjectId) (q : Pager) : Prop :=
  ∃ (staging : StagingBuffer) (journal : List Event) (count : Nat → Nat),
    q = { p.modifyObject id (fun o => { o with calls := count o.calls }) with staging, journal }

inductive NoBytes (p : Pager) (t : Template) (id : ObjectId) (i : Nat) : Halt → Pager → Prop where
  | missing (q : Pager) (none : t.filler = none) (journal : q.journal = p.journal) (left : p.Fruitless id q) :
      NoBytes p t id i (.failed .missingFiller) q
  | failed (q : Pager) (code : Int) (fails : t.Fails (t.shape.piece i).start (t.shape.piece i).stop code)
      (journal : q.journal = .filling (t.call id i) :: p.journal) (left : p.Fruitless id q) :
      NoBytes p t id i (.failed (.populate (t.shape.piece i).start (t.shape.piece i).stop code)) q

section

variable (p : Pager) (o : Managed) (i : Nat)

theorem sourced_size (q : Pager) (bytes : Bytes) (sourced : Sourced p o i bytes q) :
    bytes.size = (o.shape.piece i).fillLen := by
  cases sourced with
  | restored => exact SparseBytes.size_slice _ _ _
  | filled _ _ _ _ _ _ _ size =>
      have data := o.shape.piece_data_le i
      simp only [Managed.filledBytes, Array.size_append, Array.size_mapIdx, Array.size_replicate, size]
      omega

theorem fruitless_refl (id : ObjectId) : p.Fruitless id p := by
  refine ⟨p.staging, p.journal, fun calls => calls, ?_⟩
  have same : p.modifyObject id (fun o => { o with calls := o.calls }) = p := by
    simp only [modifyObject, ite_self, List.map_id']
  rw [same]

theorem fruitless_staging (staging : StagingBuffer) (id : ObjectId) (q : Pager)
    (left : { p with staging }.Fruitless id q) : p.Fruitless id q := by
  obtain ⟨after, journal, count, rfl⟩ := left
  exact ⟨after, journal, count, rfl⟩

theorem fill_chunk_ensures (ids : (p.objects.map Managed.id).Nodup) (member : o ∈ p.objects) :
    Ensures (fillChunk o (o.shape.piece i)) p
      (fun bytes q => ∃ filler byte old, o.template.filler = some filler ∧
        filler (o.request i) o.calls = .filled byte ∧ old.size = (o.shape.piece i).dataLen ∧
        bytes = o.filledBytes i old byte ∧ q = { p with
          objects := revised p.objects { o with calls := o.calls + 1 }
          counters := { p.counters with fills := p.counters.fills + 1 }
          journal := .filling (o.template.call o.id i) :: p.journal })
      (fun halt q => NoBytes p o.template o.id i halt q) := by
  rw [fillChunk]
  cases given : o.template.filler with
  | none => exact .missing p given rfl (fruitless_refl p o.id)
  | some filler =>
      simp only [ensures_bind, ensures_get, ensures_record, ensures_modify]
      cases made : filler (o.request i) o.calls with
      | failed code =>
          simp only [Managed.request] at made
          simp only [made, ensures_fail]
          exact .failed _ code ⟨filler, o.calls, given, Or.inl made⟩ rfl ⟨_, _, fun calls => calls + 1, rfl⟩
      | brokeOff =>
          simp only [Managed.request] at made
          simp only [made, ensures_fail]
          exact .failed _ Fill.brokeOffCode ⟨filler, o.calls, given, Or.inr ⟨made, rfl⟩⟩ rfl
            ⟨_, _, fun calls => calls + 1, rfl⟩
      | filled byte =>
          have objects := modify_object_eq
            { p with journal := .filling (o.template.call o.id i) :: p.journal }
            o (fun x => { x with calls := x.calls + 1 }) ids member rfl
          rw [Template.call] at objects
          rw [objects]
          have given := made
          simp only [Managed.request] at made
          simp only [made, ensures_bind, ensures_count, ensures_pure]
          exact ⟨filler, byte, _, rfl, given, p.staging.size_first _, rfl, rfl⟩

theorem source_chunk_ensures (ids : (p.objects.map Managed.id).Nodup) (member : o ∈ p.objects) (sound : o.Sound)
    (inside : i < o.shape.chunks) :
    Ensures (sourceChunk o (o.shape.piece i)) p
      (fun bytes q => Sourced p o i bytes q)
      (fun halt q => NoBytes p o.template o.id i halt q) := by
  have small : (o.shape.piece i).fillLen ≤ Word.maxSize := by
    have ends := o.shape.piece_end_le i inside
    have reserved := o.shape.body_reserved_le
    omega
  obtain ⟨grown, ensured⟩ := p.staging.ensure_fits (o.shape.piece i).fillLen (o.shape.piece_fill_pos i inside)
    (o.shape.piece_fill_whole i) small
  rw [sourceChunk]
  simp only [ensures_bind, ensures_get, ensured, ensures_word_ok, ensures_modify]
  have fromFiller : o.isSaved i = false → Ensures (do
        let bytes ← fillChunk o (o.shape.piece i)
        modify fun p => { p with staging := p.staging.overwrite bytes }
        pure bytes)
      { p with staging := grown } (fun bytes q => Sourced p o i bytes q)
      (fun halt q => NoBytes p o.template o.id i halt q) := by
    intro unsaved
    rw [ensures_bind]
    apply ensures_mono _ _ _ _ _ _ (fill_chunk_ensures { p with staging := grown } o i ids member)
    · intro bytes q done
      obtain ⟨filler, byte, old, given, made, size, rfl, rfl⟩ := done
      exact .filled filler byte old _ unsaved given made size
    · intro halt q failed
      cases failed with
      | missing q none journal left => exact .missing q none journal (fruitless_staging p grown o.id q left)
      | failed q code fails journal left => exact .failed q code fails journal (fruitless_staging p grown o.id q left)
  cases store : o.swap with
  | none =>
      have unsaved : o.isSaved i = false := by simp [Managed.isSaved, store]
      exact fromFiller unsaved
  | some s =>
      have chunks := (sound.store s store).chunks
      have dirty : s.isDirty (o.shape.piece i).index = .ok (s.saved i) := s.is_dirty_saved i (chunks ▸ inside)
      have saved : o.isSaved i = s.saved i := by simp [Managed.isSaved, store]
      simp only [ensures_bind, dirty, ensures_attempt_ok]
      cases bit : s.saved i with
      | false => exact fromFiller (saved.trans bit)
      | true =>
          have ends := o.shape.piece_end_le i inside
          have payload := (sound.store s store).payload
          have loaded : s.load (o.shape.piece i).bodyOffset (o.shape.piece i).fillLen = .ok (o.savedBytes i s) :=
            s.load_payload o.shape _ _ (sound.store s store) (by omega)
          simp only [restoreChunk, loaded, if_true, ensures_bind, ensures_attempt_ok, ensures_count, ensures_record,
            ensures_pure, ensures_modify]
          exact .restored s _ store bit

theorem lacks_of_not_resident (ledger : Ledger p) (member : o ∈ p.objects) (inside : i < o.shape.chunks)
    (absent : ¬ p.Resident o.id i) : o.lacks i := by
  intro page low high
  obtain ⟨k, body, same, chunk⟩ := o.shape.piece_page_offset i page inside low high
  have missing : o.hasBody k ≠ true := by
    rw [ne_eq, ledger.present o member k body, chunk]
    exact absent
  rw [← same]
  exact Bool.eq_false_iff.mpr missing

theorem first_page_of_resident (ledger : Ledger p) (member : o ∈ p.objects) (inside : i < o.shape.chunks)
    (resident : p.Resident o.id i) :
    o.mapping.bytes.isPresent ((o.shape.headerPadded + (o.shape.piece i).bodyOffset) / Page.size) = true := by
  have begins := o.shape.chunk_begins i inside
  rw [o.shape.piece_offset i inside]
  have chunk : i * o.shape.chunkLen / o.shape.chunkLen = i := Nat.mul_div_cancel i o.shape.chunk_len_pos
  exact (ledger.present o member (i * o.shape.chunkLen) begins).mpr (chunk.symm ▸ resident)

end

def installing (p : Pager) (o : Managed) (i : Nat) (bytes : Bytes) (queue : CircularQueue Residency) : Pager :=
  { p with
    objects := revised p.objects (o.withChunk i bytes)
    queue
    resident := p.resident + (o.shape.piece i).fillLen
    counters := p.counters.setResident (p.resident + (o.shape.piece i).fillLen)
    journal := .installed o.id i :: p.journal }

-- What installing a chunk makes of the pager. A chunk that is there already stays as it is, and its new record is gone again.
inductive Installed (p : Pager) (o : Managed) (i : Nat) (bytes : Bytes) : Pager → Prop where
  | fresh (queue : CircularQueue Residency) (wf : queue.WellFormed)
      (records : queue.toList = p.queue.toList ++ [o.recordOf i bytes]) (absent : ¬ p.Resident o.id i) :
      Installed p o i bytes (p.installing o i bytes queue)
  | present (queue : CircularQueue Residency) (wf : queue.WellFormed) (records : queue.toList = p.queue.toList)
      (resident : p.Resident o.id i) :
      Installed p o i bytes
        { p with
          queue
          counters := (p.counters.setResident (p.resident + (o.shape.piece i).fillLen)).setResident p.resident }

-- The system gave up the copy, or did not wake those who wait for a chunk that is there. The record is gone again.
structure Uninstalled (host : Host) (p : Pager) (o : Managed) (i : Nat) (halt : Halt) (q : Pager) : Prop where
  strict : ¬ host.Yields
  cause : ∃ cause, halt = .failed (.resource "UFFDIO_COPY" cause) ∨ halt = .failed (.resource "UFFDIO_WAKE" cause)
  left : ∃ (bytes : SparseBytes) (queue : CircularQueue Residency), queue.toList = p.queue.toList ∧
    q = { p with
      objects := revised p.objects { o with mapping := { o.mapping with bytes } }
      queue
      counters := (p.counters.setResident (p.resident + (o.shape.piece i).fillLen)).setResident p.resident }

section

variable (p : Pager) (o : Managed) (i : Nat) (bytes : Bytes)

theorem queued_append (q : Pager) (records : q.queue.toList = p.queue.toList ++ [o.recordOf i bytes]) :
    q.queuedBytes = p.queuedBytes + (o.shape.piece i).fillLen := by
  simp only [queued_bytes_eq, records, List.map_append, List.sum_append, List.map_cons, List.map_nil, List.sum_cons,
    List.sum_nil, Managed.recordOf, Nat.add_zero]

theorem live_append (q : Pager) (inside : i < o.shape.chunks)
    (records : q.queue.toList = p.queue.toList ++ [o.recordOf i bytes]) : q.live = p.live ++ [o.recordOf i bytes] := by
  have positive : decide (0 < (o.recordOf i bytes).len) = true := decide_eq_true (o.shape.piece_fill_pos i inside)
  simp only [live, records, List.filter_append, List.filter_cons, positive, if_true, List.filter_nil]

theorem unrecord_ensures (q : Pager) (newest : Residency) (rest : CircularQueue Residency) (next : Unit → Pager → Prop)
    (stopped : Halt → Pager → Prop) (popped : q.queue.popNewest = some (newest, rest)) (enough : newest.len ≤ q.resident)
    (total : { q with queue := rest }.queuedBytes = q.resident - newest.len) (within : q.resident ≤ q.settings.high) :
    Ensures (unrecord newest.address) q next stopped ↔
      next () { q with
        queue := rest
        resident := q.resident - newest.len
        counters := q.counters.setResident (q.resident - newest.len) } := by
  rw [unrecord]
  simp only [ensures_bind, ensures_get, popped, ensures_set, if_true]
  rw [ensures_give_back _ _ _ _ (by exact enough)]
  simp only [ensures_set_resident]
  rw [ensures_check_totals _ _ _ total (by exact Nat.le_trans (Nat.sub_le _ _) within)]

theorem unrecord_pushed (o : Managed) (i : Nat) (bytes : Bytes) (objects : List Managed) (queue : CircularQueue Residency)
    (next : Unit → Pager → Prop) (stopped : Halt → Pager → Prop) (ledger : Ledger p)
    (room : p.resident + (o.shape.piece i).fillLen ≤ p.settings.high) (wf : queue.WellFormed)
    (records : queue.toList = p.queue.toList ++ [o.recordOf i bytes])
    (after : ∀ rest : CircularQueue Residency, rest.WellFormed → rest.toList = p.queue.toList → next () { p with
      objects
      queue := rest
      counters := (p.counters.setResident (p.resident + (o.shape.piece i).fillLen)).setResident p.resident }) :
    Ensures (unrecord (o.mapping.base + (o.shape.headerPadded + (o.shape.piece i).bodyOffset)))
      { p with
        objects
        queue
        resident := p.resident + (o.shape.piece i).fillLen
        counters := p.counters.setResident (p.resident + (o.shape.piece i).fillLen) } next stopped := by
  obtain ⟨rest, popped, restWf, restRecords⟩ := queue.pop_newest_pushed _ _ wf records
  have back : p.resident + (o.shape.piece i).fillLen - (o.recordOf i bytes).len = p.resident := Nat.add_sub_cancel _ _
  refine (unrecord_ensures _ (o.recordOf i bytes) rest _ _ popped (Nat.le_add_left _ _) ?_ room).mpr ?_
  · rw [back, ← ledger.total, queuedBytes, queuedBytes, restRecords]
  · simp only [back]
    exact after rest restWf restRecords

theorem chunk_address (ledger : Ledger p) (member : o ∈ p.objects) (inside : i < o.shape.chunks) :
    Word.add o.shape.headerPadded (o.shape.piece i).bodyOffset = .ok (o.shape.headerPadded + (o.shape.piece i).bodyOffset) ∧
    Word.add o.mapping.base (o.shape.headerPadded + (o.shape.piece i).bodyOffset) =
      .ok (o.mapping.base + (o.shape.headerPadded + (o.shape.piece i).bodyOffset)) := by
  have ends := o.shape.piece_end_le i inside
  have bounds := (object_bounds p o ledger.toCatalogue member).2
  rw [(ledger.sound o member).len, Shape.size] at bounds
  exact ⟨Word.add_eq_ok.mpr ⟨by omega, rfl⟩, Word.add_eq_ok.mpr ⟨by omega, rfl⟩⟩

theorem install_chunk_ensures (host : Host) (ledger : Ledger p) (member : o ∈ p.objects) (inside : i < o.shape.chunks)
    (size : bytes.size = (o.shape.piece i).fillLen) (room : p.resident + (o.shape.piece i).fillLen ≤ p.settings.high) :
    Ensures (installChunk host o.id o.mapping.base o.layout (o.shape.piece i) bytes) p
      (fun _ q => Installed p o i bytes q)
      (fun halt q => Uninstalled host p o i halt q ∨
        (halt = .arithmetic .addOverflow ∧ q.journal = p.journal ∧ ¬ p.resident + (o.shape.piece i).fillLen < Word.limit)) := by
  have layout : o.layout.headerPadded = o.shape.headerPadded := by
    rw [(ledger.sound o member).layout]
    rfl
  obtain ⟨offset, address⟩ := chunk_address p o i ledger member inside
  obtain ⟨queue, pushed, wf, records⟩ := p.queue.push_grows (o.recordOf i bytes) ledger.queue
  have found : p.object? o.id = some o := (object_some_iff p o o.id ledger.ids).mpr ⟨member, rfl⟩
  simp only [object?] at found
  simp only [Managed.recordOf] at pushed
  have index : (o.shape.piece i).index = i := rfl
  rw [installChunk]
  simp only [layout, offset, address, index, pushed, ensures_bind, ensures_word_ok, ensures_get, ensures_set]
  rw [ensures_word_add]
  refine ⟨fun fits => ?_, fun excess => .inr ⟨rfl, rfl, excess⟩⟩
  simp only [ensures_set_resident, object?, found]
  have objects (mapping : Mapping) := modify_object_eq
    { p with
      queue
      resident := p.resident + (o.shape.piece i).fillLen
      counters := p.counters.setResident (p.resident + (o.shape.piece i).fillLen) }
    o (fun x => { x with mapping }) ledger.ids member rfl
  have unrevised := revised_self p o ledger.ids member
  have takenBack (mapping : Mapping) (next : Unit → Pager → Prop) (stopped : Halt → Pager → Prop) :=
    unrecord_pushed p o i bytes (revised p.objects { o with mapping }) queue next stopped ledger room wf records
  by_cases resident : p.Resident o.id i
  · have present := first_page_of_resident p o i ledger member inside resident
    have pages : 0 < Page.count bytes.size := size.symm ▸ o.shape.piece_pages_pos i inside
    rcases o.mapping.install_occupied host _ bytes pages present with copied | ⟨breaks, cause, copied⟩
    · simp only [copied, ensures_bind, ensures_modify, objects]
      refine takenBack o.mapping _ _ fun rest restWf restRecords => ?_
      rw [ensures_ask]
      simp only [unrevised]
      refine ⟨fun _ => .present rest restWf restRecords resident, fun cause refused => .inl ⟨fun yields => ?_, ?_, ?_⟩⟩
      · cases (yields.wakes _).symm.trans refused
      · exact ⟨cause, .inr rfl⟩
      · exact ⟨o.mapping.bytes, rest, restRecords, by rw [unrevised]⟩
    · simp only [copied, ensures_bind, ensures_modify, objects, ensures_fail]
      exact takenBack o.mapping _ _ fun rest _ restRecords =>
        .inl ⟨fun yields => breaks (yields.copies _), ⟨cause, .inl rfl⟩, o.mapping.bytes, rest, restRecords, rfl⟩
  · have absent := lacks_of_not_resident p o i ledger member inside resident
    rcases o.mapping.install_lacking host _ bytes (by rw [size]; exact absent) with copied | ⟨breaks, pages, cause, copied⟩
    · simp only [copied, ensures_bind, ensures_modify, objects, ensures_record]
      rw [ensures_check_totals]
      · exact .fresh queue wf records resident
      · exact (queued_append p o i bytes { p with queue } records).trans (congrArg (· + _) ledger.total)
      · exact room
    · simp only [copied, ensures_bind, ensures_modify, objects, ensures_fail]
      exact takenBack _ _ _ fun rest _ restRecords =>
        .inl ⟨fun yields => breaks (yields.copies _), ⟨cause, .inl rfl⟩, _, rest, restRecords, rfl⟩

theorem ledger_sourced (q : Pager) (ledger : Ledger p) (member : o ∈ p.objects) (sourced : Sourced p o i bytes q) :
    Ledger q ∧ q.queue = p.queue ∧ q.resident = p.resident ∧ q.settings = p.settings ∧
      ∃ calls, { o with calls } ∈ q.objects := by
  have sound := ledger.sound o member
  cases sourced with
  | restored s staging store saved =>
      refine ⟨?_, rfl, rfl, rfl, o.calls, member⟩
      exact ledger_revise p o _ o ledger member o.becomes_refl sound (fun _ _ => rfl)
        (revised_self p o ledger.ids member).symm rfl ⟨rfl, rfl, rfl, rfl⟩ ⟨rfl, rfl, rfl⟩
  | filled filler byte old staging unsaved given made size =>
      have known : o.id ∈ p.objects.map Managed.id := List.mem_map_of_mem member
      have there := (mem_revised p.objects { o with calls := o.calls + 1 } _ known).mpr (Or.inl rfl)
      refine ⟨?_, rfl, rfl, rfl, o.calls + 1, there⟩
      exact ledger_revise p o _ { o with calls := o.calls + 1 } ledger member ⟨rfl, rfl, rfl, rfl, rfl⟩
        ⟨sound.layout, sound.len, sound.own, sound.header, sound.store, sound.writable⟩ (fun _ _ => rfl) rfl rfl
        ⟨rfl, rfl, rfl, rfl⟩ ⟨rfl, rfl, rfl⟩

theorem resident_installed (q : Pager) (inside : i < o.shape.chunks)
    (records : q.queue.toList = p.queue.toList ++ [o.recordOf i bytes]) (id : ObjectId) (j : Nat) :
    q.Resident id j ↔ p.Resident id j ∨ (id, j) = (o.id, i) := by
  rw [Resident]
  rw [live_append p o i bytes q inside records]
  simp only [List.mem_append, List.mem_singleton, or_and_right, exists_or, exists_eq_left]
  exact or_congr Iff.rfl eq_comm

theorem ledger_installing (queue : CircularQueue Residency) (ledger : Ledger p) (member : o ∈ p.objects)
    (inside : i < o.shape.chunks) (size : bytes.size = (o.shape.piece i).fillLen)
    (room : p.resident + (o.shape.piece i).fillLen ≤ p.settings.high) (wf : queue.WellFormed)
    (records : queue.toList = p.queue.toList ++ [o.recordOf i bytes]) (absent : ¬ p.Resident o.id i) :
    Ledger (p.installing o i bytes queue) := by
  have peak := ledger.peak
  have absentPages := lacks_of_not_resident p o i ledger member inside absent
  have known : o.id ∈ p.objects.map Managed.id := List.mem_map_of_mem member
  have becomes := o.with_chunk_becomes i bytes
  have sound := o.with_chunk_sound i bytes (ledger.sound o member) size absentPages
  have live := live_append p o i bytes (p.installing o i bytes queue) inside records
  have catalogue : Catalogue (p.installing o i bytes queue) :=
    catalogue_revise p o _ _ ledger.toCatalogue member becomes sound rfl ⟨rfl, rfl, rfl, rfl⟩
  refine { catalogue with
    queue := wf, distinct := ?_, owned := fun r isLive => ?_, present := fun x xMember k body => ?_, total := ?_
    published := rfl, peak := ?_ }
  · rw [live, List.map_append, List.nodup_append]
    refine ⟨ledger.distinct, by simp, fun key inLive key' inNew same => absent ?_⟩
    obtain ⟨r, isLive, rfl⟩ := List.mem_map.mp inLive
    simp only [List.map_cons, List.map_nil, List.mem_singleton] at inNew
    exact ⟨r, isLive, same.trans inNew⟩
  · cases List.mem_append.mp (live ▸ isLive) with
    | inl before => exact owned_revised p o _ r ledger.ids member becomes (ledger.owned r before)
    | inr new =>
        rw [List.mem_singleton.mp new]
        exact owned_revised p o _ _ ledger.ids member becomes ⟨o, member, o.record_of i bytes inside⟩
  · rw [resident_installed p o i bytes _ inside records]
    cases (mem_revised p.objects (o.withChunk i bytes) x known).mp xMember with
    | inl same =>
        subst same
        rw [o.with_chunk_has_body i bytes k inside body size absentPages, Bool.or_eq_true,
          ledger.present o member k body, becomes.id, o.becomes_shape _ becomes]
        simp [or_comm]
    | inr other =>
        rw [ledger.present x other.1 k body]
        have otherOwner : (x.id, k / x.shape.chunkLen) ≠ (o.id, i) := fun same => other.2 (congrArg Prod.fst same)
        simp [otherOwner]
  · rw [queued_append p o i bytes _ records, ledger.total]
    rfl
  · simp only [installing, Counters.setResident]
    omega

theorem ledger_installed (q : Pager) (ledger : Ledger p) (member : o ∈ p.objects) (inside : i < o.shape.chunks)
    (size : bytes.size = (o.shape.piece i).fillLen) (room : p.resident + (o.shape.piece i).fillLen ≤ p.settings.high)
    (installed : Installed p o i bytes q) : Ledger q := by
  cases installed with
  | fresh queue wf records absent =>
      exact ledger_installing p o i bytes queue ledger member inside size room wf records absent
  | present queue wf records resident =>
      have peak := ledger.peak
      have live : ({ p with queue } : Pager).live = p.live := by simp only [live, records]
      refine {
        marks := ledger.marks, index := ledger.index, indexed := ledger.indexed, ids := ledger.ids
        sound := ledger.sound, affordable := ledger.affordable, watched := ledger.watched, remains := ledger.remains
        queue := wf
        distinct := live ▸ ledger.distinct
        owned := live ▸ ledger.owned
        present := fun x member k body => ?_
        total := ?_
        published := rfl
        peak := ?_ }
      · rw [ledger.present x member k body, Resident, ← live]
        rfl
      · rw [← ledger.total, queuedBytes, queuedBytes, records]
      · simp only [Counters.setResident]
        omega

end

def noticed (p : Pager) : Pager := { p with counters := { p.counters with faults := p.counters.faults + 1 } }

theorem ledger_noticed (p : Pager) (ledger : Ledger p) : Ledger p.noticed :=
  { ledger with
    marks := ledger.marks, indexed := ledger.indexed, affordable := ledger.affordable, owned := ledger.owned
    present := ledger.present, peak := ledger.peak }

def supply (host : Host) (o : Managed) (i : Nat) : M Unit := do
  match (← get).object? o.id with
  | none => breach (.vanished o.id)
  | some object =>
    let bytes ← sourceChunk object (o.shape.piece i)
    installChunk host o.id o.mapping.base o.layout (o.shape.piece i) bytes

def bringIn (host : Host) (o : Managed) (i : Nat) : M Unit := do
  makeRoom host (o.shape.piece i).fillLen
  supply host o i

inductive Resolved (p : Pager) (address : Nat) : Pager → Prop where
  | header (o : Managed) (member : o ∈ p.objects) (low : o.mapping.base ≤ address)
      (high : address - o.mapping.base < o.shape.headerPadded) : Resolved p address p.noticed
  | body (o now : Managed) (k calls : Nat) (bytes : Bytes) (roomy supplied q : Pager) (member : o ∈ p.objects)
      (place : address = o.mapping.base + (o.shape.headerPadded + k)) (inside : k < o.shape.bodyReserved)
      (room : MadeRoom p.noticed (o.shape.piece (k / o.shape.chunkLen)).fillLen roomy) (becomes : o.Becomes now)
      (nowMember : now ∈ roomy.objects)
      (sourced : Sourced roomy now (k / o.shape.chunkLen) bytes supplied)
      (there : { now with calls } ∈ supplied.objects)
      (installed : Installed supplied { now with calls } (k / o.shape.chunkLen) bytes q) : Resolved p address q

inductive Justified (low : Nat) (template : Template) : Halt → Prop where
  | unfilled (start stop : Nat) (code : Int) (fails : template.Fails start stop code) :
      Justified low template (.failed (.populate start stop code))
  | full (i : Nat) (inside : i < template.shape.chunks) (large : low < (template.shape.piece i).fillLen) :
      Justified low template (.failed (.budgetExhausted (template.shape.piece i).fillLen 0 low))

inductive BringInStops (host : Host) (p : Pager) (o : Managed) (i : Nat) : Halt → Pager → Prop where
  | full (halt : Halt) (q : Pager) (short : NoRoom host p.noticed (o.shape.piece i).fillLen halt q) :
      BringInStops host p o i halt q
  | unfilled (roomy : Pager) (halt : Halt) (q : Pager) (room : MadeRoom p.noticed (o.shape.piece i).fillLen roomy)
      (failed : NoBytes roomy o.template o.id i halt q) : BringInStops host p o i halt q
  | uninstalled (now : Managed) (calls : Nat) (bytes : Bytes) (roomy supplied : Pager) (halt : Halt) (q : Pager)
      (room : MadeRoom p.noticed (o.shape.piece i).fillLen roomy) (becomes : o.Becomes now)
      (nowMember : now ∈ roomy.objects) (sourced : Sourced roomy now i bytes supplied)
      (there : { now with calls } ∈ supplied.objects) (failed : Uninstalled host supplied { now with calls } i halt q) :
      BringInStops host p o i halt q
  | uncounted (now : Managed) (bytes : Bytes) (roomy supplied q : Pager)
      (room : MadeRoom p.noticed (o.shape.piece i).fillLen roomy) (becomes : o.Becomes now) (nowMember : now ∈ roomy.objects)
      (sourced : Sourced roomy now i bytes supplied) (journal : q.journal = supplied.journal)
      (excess : ¬ p.resident + (o.shape.piece i).fillLen < Word.limit) :
      BringInStops host p o i (.arithmetic .addOverflow) q

inductive FaultStops (host : Host) (p : Pager) (address : Nat) : Halt → Pager → Prop where
  | nowhere (none : ∀ o ∈ p.objects, ¬ o.entry.Holds address) :
      FaultStops host p address (.failed (.unknownFaultAddress address)) p.noticed
  | unzeroed (o : Managed) (member : o ∈ p.objects) (low : o.mapping.base ≤ address)
      (high : address - o.mapping.base < o.shape.headerPadded) (cause : SystemError)
      (refused : host.refuse (.zero ⟨address, Page.size⟩) = some cause) :
      FaultStops host p address (.failed (.resource "UFFDIO_ZEROPAGE" cause)) p.noticed
  | bringIn (o : Managed) (k : Nat) (halt : Halt) (q : Pager) (member : o ∈ p.objects) (inside : k < o.shape.bodyReserved)
      (place : address = o.mapping.base + (o.shape.headerPadded + k))
      (stops : BringInStops host p o (k / o.shape.chunkLen) halt q) : FaultStops host p address halt q

section

variable (host : Host) (p : Pager) (address : Nat)

theorem justified_of_stops (o : Managed) (i : Nat) (halt : Halt) (q : Pager) (inside : i < o.shape.chunks)
    (given : o.template.filler ≠ none) (fits : p.resident + (o.shape.piece i).fillLen < Word.limit)
    (yields : host.Yields) (stops : BringInStops host p o i halt q) : Justified p.settings.low o.template halt := by
  cases stops with
  | full halt q short =>
      cases short with
      | overflow excess => exact absurd fits excess
      | exhausted q above pass fits large nothing => exact .full i inside large
      | stalled halt q stalls =>
          obtain ⟨last, queue, -, unreleased⟩ := stalls
          exact absurd yields.releases unreleased.strict
  | unfilled roomy halt q room failed =>
      cases failed with
      | missing q none => exact absurd none given
      | failed q code fails => exact .unfilled _ _ code fails
  | uninstalled now calls bytes roomy supplied halt q room becomes nowMember sourced there failed =>
      exact absurd yields failed.strict
  | uncounted now bytes roomy supplied q room becomes nowMember sourced journal excess => exact absurd fits excess

theorem stops_without_assertion (halt : Halt) (q : Pager) (stops : FaultStops host p address halt q) (text : String) :
    halt ≠ .assertion text := by
  cases stops with
  | nowhere none => exact fun impossible => by cases impossible
  | unzeroed => exact fun impossible => by cases impossible
  | bringIn o k halt q member inside place stops =>
      cases stops with
      | full halt q short =>
          cases short with
          | overflow => exact fun impossible => by cases impossible
          | exhausted => exact fun impossible => by cases impossible
          | stalled halt q stalls =>
              obtain ⟨last, queue, -, unreleased⟩ := stalls
              obtain ⟨cause, rfl⟩ := unreleased.cause
              exact fun impossible => by cases impossible
      | unfilled roomy halt q room failed => cases failed <;> exact fun impossible => by cases impossible
      | uninstalled now calls bytes roomy supplied halt q room becomes nowMember sourced there failed =>
          obtain ⟨cause, rfl | rfl⟩ := failed.cause <;> exact fun impossible => by cases impossible
      | uncounted => exact fun impossible => by cases impossible

theorem roomy_ready (o : Managed) (i : Nat) (roomy : Pager) (ledger : Ledger p) (member : o ∈ p.objects)
    (made : MadeRoom p.noticed (o.shape.piece i).fillLen roomy) :
    Ledger roomy ∧ ∃ now ∈ roomy.objects, o.Becomes now ∧ now.layout = o.layout ∧
      roomy.resident + (now.shape.piece i).fillLen ≤ roomy.settings.high := by
  have noticed := ledger_noticed p ledger
  have turns := turns_of_room p.noticed roomy _ made
  have roomyLedger := ledger_turns _ roomy noticed turns
  obtain ⟨settings, -⟩ := turns_frame _ roomy turns
  obtain ⟨now, nowMember, becomes⟩ := (turns_last _ roomy noticed turns).forth o member
  have shape := o.becomes_shape now becomes
  refine ⟨roomyLedger, now, nowMember, becomes, ?_, ?_⟩
  · rw [(roomyLedger.sound now nowMember).layout, (ledger.sound o member).layout, shape]
  · rw [settings, shape]
    exact room_made p.noticed roomy _ ledger.marks made

theorem ledgers_of_room (now : Managed) (i incoming : Nat) (bytes : Bytes) (roomy supplied : Pager) (ledger : Ledger p)
    (made : MadeRoom p.noticed incoming roomy) (nowMember : now ∈ roomy.objects) (sourced : Sourced roomy now i bytes supplied) :
    Ledger roomy ∧ Ledger supplied ∧ supplied.queue = roomy.queue := by
  have roomyLedger := ledger_turns _ roomy (ledger_noticed p ledger) (turns_of_room p.noticed roomy incoming made)
  obtain ⟨suppliedLedger, queue, -⟩ := ledger_sourced roomy now i bytes supplied roomyLedger nowMember sourced
  exact ⟨roomyLedger, suppliedLedger, queue⟩

theorem supply_ensures (o now : Managed) (i : Nat) (roomy : Pager) (ledger : Ledger roomy) (nowMember : now ∈ roomy.objects)
    (becomes : o.Becomes now) (layout : now.layout = o.layout) (chunk : i < now.shape.chunks)
    (room : roomy.resident + (now.shape.piece i).fillLen ≤ roomy.settings.high) :
    Ensures (supply host o i) roomy
      (fun _ q => Ledger q ∧ ∃ calls bytes supplied, Sourced roomy now i bytes supplied ∧
        { now with calls } ∈ supplied.objects ∧ Installed supplied { now with calls } i bytes q)
      (fun halt q => NoBytes roomy now.template now.id i halt q ∨
        (∃ calls bytes supplied, Sourced roomy now i bytes supplied ∧ { now with calls } ∈ supplied.objects ∧
          Uninstalled host supplied { now with calls } i halt q) ∨
        (∃ bytes supplied, Sourced roomy now i bytes supplied ∧ q.journal = supplied.journal ∧
          halt = .arithmetic .addOverflow ∧ ¬ roomy.resident + (now.shape.piece i).fillLen < Word.limit)) := by
  have shape := o.becomes_shape now becomes
  have found : roomy.object? o.id = some now := (object_some_iff roomy now o.id ledger.ids).mpr ⟨nowMember, becomes.id⟩
  rw [supply]
  simp only [ensures_bind, ensures_get, found]
  have source := source_chunk_ensures roomy now i ledger.ids nowMember (ledger.sound now nowMember) chunk
  rw [← shape]
  apply ensures_mono _ _ _ _ _ _ source
  · intro bytes supplied sourced
    have size := sourced_size roomy now i supplied bytes sourced
    obtain ⟨suppliedLedger, -, resident, settings, calls, there⟩ :=
      ledger_sourced roomy now i bytes supplied ledger nowMember sourced
    have enough : supplied.resident + (now.shape.piece i).fillLen ≤ supplied.settings.high := by
      rw [resident, settings]
      exact room
    rw [← becomes.id, ← becomes.base, ← layout]
    apply ensures_mono _ _ _ _ _ _
      (install_chunk_ensures supplied { now with calls } i bytes host suppliedLedger there chunk size enough)
    · intro _ q installed
      exact ⟨ledger_installed supplied { now with calls } i bytes q suppliedLedger there chunk size enough installed,
        calls, bytes, supplied, sourced, there, installed⟩
    · intro halt q failed
      rcases failed with uninstalled | ⟨rfl, journal, excess⟩
      · exact .inr (.inl ⟨calls, bytes, supplied, sourced, there, uninstalled⟩)
      · exact .inr (.inr ⟨bytes, supplied, sourced, journal, rfl, resident ▸ excess⟩)
  · exact fun halt q failed => .inl failed

theorem bring_in_ensures (o : Managed) (k : Nat) (ledger : Ledger p) (member : o ∈ p.objects)
    (inside : k < o.shape.bodyReserved) (place : address = o.mapping.base + (o.shape.headerPadded + k)) :
    Ensures (bringIn host o (k / o.shape.chunkLen)) p.noticed
      (fun _ q => Ledger q ∧ Resolved p address q)
      (fun halt q => BringInStops host p o (k / o.shape.chunkLen) halt q) := by
  have chunk := o.shape.chunk_of_offset_lt k inside
  generalize same : k / o.shape.chunkLen = i at chunk
  rw [bringIn, ensures_bind]
  apply ensures_mono _ _ _ _ _ _ (make_room_ensures host p.noticed (o.shape.piece i).fillLen (ledger_noticed p ledger))
  · intro _ roomy made
    obtain ⟨roomyLedger, now, nowMember, becomes, layout, room⟩ := roomy_ready p o i roomy ledger member made
    have shape := o.becomes_shape now becomes
    apply ensures_mono _ _ _ _ _ _
      (supply_ensures host o now i roomy roomyLedger nowMember becomes layout (shape ▸ chunk) room)
    · intro _ q done
      obtain ⟨whole, calls, bytes, supplied, sourced, there, installed⟩ := done
      exact ⟨whole, .body o now k calls bytes roomy supplied q member place inside (same.symm ▸ made) becomes nowMember
        (same.symm ▸ sourced) there (same.symm ▸ installed)⟩
    · intro halt q failed
      rcases failed with unfilled | ⟨calls, bytes, supplied, sourced, there, uninstalled⟩ |
        ⟨bytes, supplied, sourced, journal, rfl, excess⟩
      · rw [becomes.template, becomes.id] at unfilled
        exact .unfilled roomy halt q made unfilled
      · exact .uninstalled now calls bytes roomy supplied halt q made becomes nowMember sourced there uninstalled
      · obtain ⟨-, -, -, -, fewer⟩ := turns_frame _ roomy (turns_of_room p.noticed roomy _ made)
        rw [shape] at excess
        exact .uncounted now bytes roomy supplied q made becomes nowMember sourced journal fun fits =>
          excess (Nat.lt_of_le_of_lt (Nat.add_le_add_right fewer _) fits)
  · exact fun halt q short => .full halt q short

theorem ensures_resolve_body (o : Managed) (k : Nat) (ok : Unit → Pager → Prop) (stopped : Halt → Pager → Prop)
    (ledger : Ledger p) (member : o ∈ p.objects) (inside : k < o.shape.bodyReserved)
    (place : address = o.mapping.base + (o.shape.headerPadded + k)) :
    Ensures (resolve host address) p ok stopped ↔ Ensures (bringIn host o (k / o.shape.chunkLen)) p.noticed ok stopped := by
  have sound := ledger.sound o member
  have low : o.mapping.base ≤ address := place ▸ Nat.le_add_right _ _
  have holds : o.entry.Holds address := place ▸ o.holds_of_offset _ sound (Nat.add_lt_add_left inside _)
  have found : p.index.find? address = some o.entry :=
    (find_iff p address o.entry ledger.toCatalogue).mpr ⟨o, member, rfl, holds⟩
  have tracked : p.object? o.entry.owner = some o := (object_some_iff p o o.id ledger.ids).mpr ⟨member, rfl⟩
  have offset : Word.sub address o.entry.base = .ok (address - o.mapping.base) := Word.sub_eq_ok.mpr ⟨low, rfl⟩
  have layout : o.layout.headerPadded = o.shape.headerPadded := by rw [sound.layout]; rfl
  have body : ¬ address - o.mapping.base < o.shape.headerPadded := by omega
  have bodyOffset : address - o.mapping.base - o.shape.headerPadded = k := by omega
  have located : o.layout.chunkAt k = .ok (some (o.shape.piece (k / o.shape.chunkLen))) := by
    rw [sound.layout, o.shape.layout_chunk_at, if_neg (Nat.not_le.mpr inside)]
  have affordable : ¬ p.settings.high < (o.shape.piece (k / o.shape.chunkLen)).fillLen :=
    Nat.not_lt.mpr (ledger.affordable o member _ (o.shape.chunk_of_offset_lt k inside))
  simp only [object?] at tracked
  rw [resolve]
  simp only [ensures_bind, ensures_count, ensures_get, found, object?, tracked, offset, layout, ensures_word_ok, if_neg body,
    bodyOffset, located, if_neg affordable]
  rw [bringIn, ensures_bind]
  exact Iff.rfl

theorem ensures_resolve_header (o : Managed) (ok : Unit → Pager → Prop) (stopped : Halt → Pager → Prop) (ledger : Ledger p)
    (member : o ∈ p.objects) (holds : o.entry.Holds address) (header : address - o.mapping.base < o.shape.headerPadded) :
    Ensures (resolve host address) p ok stopped ↔
      (host.refuse (.zero ⟨address, Page.size⟩) = none → ok () p.noticed) ∧
      ∀ cause, host.refuse (.zero ⟨address, Page.size⟩) = some cause →
        stopped (.failed (.resource "UFFDIO_ZEROPAGE" cause)) p.noticed := by
  have sound := ledger.sound o member
  have found : p.index.find? address = some o.entry :=
    (find_iff p address o.entry ledger.toCatalogue).mpr ⟨o, member, rfl, holds⟩
  have tracked : p.object? o.entry.owner = some o := (object_some_iff p o o.id ledger.ids).mpr ⟨member, rfl⟩
  have offset : Word.sub address o.entry.base = .ok (address - o.mapping.base) := Word.sub_eq_ok.mpr ⟨holds.1, rfl⟩
  have layout : o.layout.headerPadded = o.shape.headerPadded := by rw [sound.layout]; rfl
  have there := header_present p o ledger member (address - o.mapping.base) (layout.symm ▸ header)
  have supplied : o.mapping.bytes.supply ((address - o.mapping.base) / Page.size) = o.mapping.bytes := if_pos there
  have unchanged : p.noticed.modifyObject o.entry.owner (fun x => { x with mapping := { x.mapping with
      bytes := x.mapping.bytes.supply ((address - o.mapping.base) / Page.size) } }) = p.noticed := by
    rw [show o.entry.owner = o.id from rfl, modify_object_eq p.noticed o _ ledger.ids member rfl]
    simp only [supplied]
    exact congrArg (fun objects => { p.noticed with objects }) (revised_self p o ledger.ids member)
  simp only [object?] at tracked
  rw [resolve]
  simp only [ensures_bind, ensures_count, ensures_get, found, object?, tracked, offset, layout, ensures_word_ok, if_pos header,
    ensures_modify]
  rw [ensures_ask]
  exact unchanged.symm ▸ Iff.rfl

theorem ensures_resolve_nowhere (ok : Unit → Pager → Prop) (stopped : Halt → Pager → Prop)
    (none : p.index.find? address = none) :
    Ensures (resolve host address) p ok stopped ↔ stopped (.failed (.unknownFaultAddress address)) p.noticed := by
  rw [resolve]
  simp only [ensures_bind, ensures_count, ensures_get, none]
  exact Iff.rfl

theorem resolve_ensures (ledger : Ledger p) :
    Ensures (resolve host address) p
      (fun _ q => Ledger q ∧ Resolved p address q)
      (fun halt q => FaultStops host p address halt q) := by
  cases found : p.index.find? address with
  | none =>
      rw [ensures_resolve_nowhere host p address _ _ found]
      refine .nowhere fun o member holds => ?_
      have hit := (find_iff p address o.entry ledger.toCatalogue).mpr ⟨o, member, rfl, holds⟩
      rw [found] at hit
      cases hit
  | some e =>
      obtain ⟨o, member, rfl, holds⟩ := (find_iff p address e ledger.toCatalogue).mp found
      have low : o.mapping.base ≤ address := holds.1
      have total : address < o.mapping.base + o.shape.size := (ledger.sound o member).len ▸ holds.2
      by_cases header : address - o.mapping.base < o.shape.headerPadded
      · rw [ensures_resolve_header host p address o _ _ ledger member holds header]
        exact ⟨fun _ => ⟨ledger_noticed p ledger, .header o member low header⟩,
          fun cause refused => .unzeroed o member low header cause refused⟩
      · obtain ⟨k, place⟩ : ∃ k, address = o.mapping.base + (o.shape.headerPadded + k) :=
          ⟨address - o.mapping.base - o.shape.headerPadded, by omega⟩
        have inside : k < o.shape.bodyReserved := by
          rw [place, Shape.size] at total
          omega
        rw [ensures_resolve_body host p address o k _ _ ledger member inside place]
        exact ensures_mono _ _ _ _ _ _ (bring_in_ensures host p address o k ledger member inside place) (fun _ _ => id)
          (fun halt q stops => .bringIn o k halt q member inside place stops)

theorem resolved_lasts (q : Pager) (ledger : Ledger p) (resolved : Resolved p address q) : Lasts p q := by
  cases resolved with
  | header => exact lasts_of_objects p _ rfl
  | body o now k calls bytes roomy supplied q member place inside room becomes nowMember sourced there installed =>
      have turns := turns_of_room p.noticed roomy _ room
      obtain ⟨roomyLedger, suppliedLedger, -⟩ := ledgers_of_room p now _ _ bytes roomy supplied ledger room nowMember sourced
      have first : Lasts p roomy :=
        lasts_trans p p.noticed roomy (lasts_of_objects p _ rfl) (turns_last _ roomy (ledger_noticed p ledger) turns)
      have second : Lasts roomy supplied := by
        cases sourced with
        | restored => exact lasts_of_objects roomy _ rfl
        | filled =>
            exact lasts_revised roomy now _ { now with calls := now.calls + 1 } roomyLedger.ids nowMember
              ⟨rfl, rfl, rfl, rfl, rfl⟩ rfl
      have third : Lasts supplied q := by
        cases installed with
        | fresh => exact lasts_revised supplied _ _ _ suppliedLedger.ids there (Managed.with_chunk_becomes _ _ bytes) rfl
        | present => exact lasts_of_objects supplied _ rfl
      exact lasts_trans p roomy q first (lasts_trans roomy supplied q second third)

end

end Pager

end DemandPaging
