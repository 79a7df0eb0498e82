import DemandPaging.Proofs.ChunkRanges
import DemandPaging.Proofs.SavedBits

set_option autoImplicit false

namespace DemandPaging.SwapStore

inductive Op where
  | mark (index : Nat)
  | ask (index : Nat)
  | clear
  | count
  | load (offset len : Nat)
  | store (offset : Nat) (bytes : Bytes)

inductive Answer where
  | done
  | refused (failure : Failure)
  | bit (saved : Bool)
  | number (count : Nat)
  | bytes (loaded : Bytes)

-- A chunk counts as saved from the operation that marks it to the next one that clears.
def Op.MarkedLast (index : Nat) (ops : List Op) : Prop :=
  ∃ before after, ops = before ++ .mark index :: after ∧ .clear ∉ after

theorem marked_cons (index : Nat) (op : Op) (ops : List Op) :
    Op.MarkedLast index (op :: ops) ↔ (op = .mark index ∧ .clear ∉ ops) ∨ Op.MarkedLast index ops := by
  constructor
  · rintro ⟨before, after, split, kept⟩
    cases before with
    | nil =>
        obtain ⟨rfl, rfl⟩ := List.cons.inj split
        exact Or.inl ⟨rfl, kept⟩
    | cons first before =>
        obtain ⟨rfl, rfl⟩ := List.cons.inj split
        exact Or.inr ⟨before, after, rfl, kept⟩
  · rintro (⟨rfl, kept⟩ | ⟨before, after, rfl, kept⟩)
    · exact ⟨[], ops, rfl, kept⟩
    · exact ⟨op :: before, after, rfl, kept⟩

section

variable [Platform]

def perform (s : SwapStore) : Op → Answer × SwapStore
  | .mark index =>
    match s.setDirty index with
    | .ok next => (.done, next)
    | .error failure => (.refused failure, s)
  | .ask index =>
    match s.isDirty index with
    | .ok saved => (.bit saved, s)
    | .error failure => (.refused failure, s)
  | .clear => (.done, s.clearDirty)
  | .count => (.number s.dirtyCount, s)
  | .load offset len =>
    match s.load offset len with
    | .ok bytes => (.bytes bytes, s)
    | .error failure => (.refused failure, s)
  | .store offset bytes =>
    match s.store offset bytes with
    | .ok next => (.done, next)
    | .error failure => (.refused failure, s)

def performAll (s : SwapStore) : List Op → List Answer × SwapStore
  | [] => ([], s)
  | op :: ops =>
    let (answer, next) := s.perform op
    let (answers, last) := next.performAll ops
    (answer :: answers, last)

-- The chunks that count as saved, and what stands at every offset of the body.
structure Copies where
  marked : Finset Nat
  bytes : Nat → UInt8

namespace Copies

def none : Copies := ⟨∅, fun _ => 0⟩

def perform (c : Copies) (shape : Shape) : Op → Answer × Copies
  | .mark index =>
    if index < shape.chunks then
      (.done, { c with marked := insert index c.marked })
    else
      (.refused (.invariant (.chunkOutside index shape.chunks)), c)
  | .ask index =>
    if index < shape.chunks then
      (.bit (decide (index ∈ c.marked)), c)
    else
      (.refused (.invariant (.chunkOutside index shape.chunks)), c)
  | .clear => (.done, { c with marked := ∅ })
  | .count => (.number c.marked.card, c)
  | .load offset len =>
    if offset + len ≤ shape.bodyReserved then
      (.bytes (Array.ofFn fun (k : Fin len) => c.bytes (offset + k.val)), c)
    else
      (.refused (.invariant (.payloadRange offset len shape.bodyReserved)), c)
  | .store offset bytes =>
    if offset + bytes.size ≤ shape.bodyReserved then
      (.done, { c with
        bytes := fun k => if offset ≤ k ∧ k < offset + bytes.size then bytes.getD (k - offset) 0 else c.bytes k })
    else
      (.refused (.invariant (.payloadRange offset bytes.size shape.bodyReserved)), c)

def performAll (c : Copies) (shape : Shape) : List Op → List Answer × Copies
  | [] => ([], c)
  | op :: ops =>
    let (answer, next) := c.perform shape op
    let (answers, last) := next.performAll shape ops
    (answer :: answers, last)

end Copies

-- The store holds these copies, and no bit behind that of the last chunk is set.
structure Holds (s : SwapStore) (shape : Shape) (c : Copies) : Prop where
  sound : s.Sound shape
  inside : ∀ i ∈ c.marked, i < shape.chunks
  bits : ∀ i, i / 8 < s.bitmapLen → s.saved i = decide (i ∈ c.marked)
  bytes : ∀ k, s.payload k = c.bytes k

section

variable (s : SwapStore) (shape : Shape) (c : Copies)

theorem check_chunk_refused (i : Nat) (sound : s.Sound shape) (outside : ¬ i < shape.chunks) :
    s.checkChunk i = .error (.invariant (.chunkOutside i shape.chunks)) := by
  rw [checkChunk, sound.chunks, if_neg outside]

theorem check_payload_refused (offset len : Nat) (sound : s.Sound shape) (outside : ¬ offset + len ≤ shape.bodyReserved) :
    s.checkPayload offset len = .error (.invariant (.payloadRange offset len shape.bodyReserved)) := by
  rw [checkPayload, sound.payload, if_neg outside]

theorem set_dirty_refused (i : Nat) (sound : s.Sound shape) (outside : ¬ i < shape.chunks) :
    s.setDirty i = .error (.invariant (.chunkOutside i shape.chunks)) := by
  rw [setDirty, check_chunk_refused s shape i sound outside]
  rfl

theorem is_dirty_refused (i : Nat) (sound : s.Sound shape) (outside : ¬ i < shape.chunks) :
    s.isDirty i = .error (.invariant (.chunkOutside i shape.chunks)) := by
  rw [isDirty, check_chunk_refused s shape i sound outside]
  rfl

theorem load_refused (offset len : Nat) (sound : s.Sound shape) (outside : ¬ offset + len ≤ shape.bodyReserved) :
    s.load offset len = .error (.invariant (.payloadRange offset len shape.bodyReserved)) := by
  rw [load, check_payload_refused s shape offset len sound outside]
  rfl

theorem store_refused (offset : Nat) (bytes : Bytes) (sound : s.Sound shape)
    (outside : ¬ offset + bytes.size ≤ shape.bodyReserved) :
    s.store offset bytes = .error (.invariant (.payloadRange offset bytes.size shape.bodyReserved)) := by
  rw [store, check_payload_refused s shape offset bytes.size sound outside]
  rfl

def Agrees (op : Op) : Prop :=
  (s.perform op).1 = (c.perform shape op).1 ∧ (s.perform op).2.Holds shape (c.perform shape op).2

variable (holds : s.Holds shape c)

include holds

theorem agrees_mark (index : Nat) : s.Agrees shape c (.mark index) := by
  rw [Agrees]
  simp only [perform, Copies.perform]
  by_cases inside : index < shape.chunks
  · obtain ⟨next, marked, sound, -, saved, payload⟩ :=
      set_dirty_saved s shape index holds.sound (holds.sound.chunks.symm ▸ inside)
    rw [marked, if_pos inside]
    refine ⟨rfl, sound, ?_, ?_, fun k => (payload k).trans (holds.bytes k)⟩
    · intro i member
      rcases Finset.mem_insert.mp member with rfl | before
      · exact inside
      · exact holds.inside i before
    · intro i front
      have same : next.bitmapLen = s.bitmapLen := sound.bitmap.trans holds.sound.bitmap.symm
      rw [saved, holds.bits i (same ▸ front)]
      simp [Finset.mem_insert]
  · rw [set_dirty_refused s shape index holds.sound inside, if_neg inside]
    exact ⟨rfl, holds⟩

theorem agrees_ask (index : Nat) : s.Agrees shape c (.ask index) := by
  rw [Agrees]
  simp only [perform, Copies.perform]
  by_cases inside : index < shape.chunks
  · have chunk : index < s.chunkCount := holds.sound.chunks.symm ▸ inside
    rw [is_dirty_saved s index chunk, if_pos inside, holds.bits index (bit_in_bitmap s shape index holds.sound chunk)]
    exact ⟨rfl, holds⟩
  · rw [is_dirty_refused s shape index holds.sound inside, if_neg inside]
    exact ⟨rfl, holds⟩

theorem agrees_clear : s.Agrees shape c .clear := by
  refine ⟨rfl, clear_dirty_sound s shape holds.sound, ?_, ?_, fun k => (clear_dirty_payload s k).trans (holds.bytes k)⟩
  · intro i member
    exact absurd member (Finset.notMem_empty i)
  · intro i front
    exact clear_dirty_bits s shape i holds.sound front

-- No bit is set behind the last chunk, so that the bits of the whole front are those of the chunks.
theorem count_marked : s.dirtyCount = c.marked.card := by
  rw [dirty_count_eq s shape holds.sound]
  congr 1
  ext i
  rw [Finset.mem_filter, Finset.mem_range]
  constructor
  · intro given
    obtain ⟨front, set⟩ := given
    rw [holds.bits i (by omega)] at set
    exact of_decide_eq_true set
  · intro member
    have front := bit_in_bitmap s shape i holds.sound (holds.sound.chunks.symm ▸ holds.inside i member)
    refine ⟨by omega, ?_⟩
    rw [holds.bits i front]
    exact decide_eq_true member

theorem load_copies (offset len : Nat) (inside : offset + len ≤ shape.bodyReserved) :
    s.load offset len = .ok (Array.ofFn fun (k : Fin len) => c.bytes (offset + k.val)) := by
  rw [load_payload s shape offset len holds.sound (holds.sound.payload.symm ▸ inside), SparseBytes.slice]
  congr 2
  funext k
  rw [← holds.bytes (offset + k.val), payload, Nat.add_assoc]

theorem agrees_load (offset len : Nat) : s.Agrees shape c (.load offset len) := by
  rw [Agrees]
  simp only [perform, Copies.perform]
  by_cases inside : offset + len ≤ shape.bodyReserved
  · rw [load_copies s shape c holds offset len inside, if_pos inside]
    exact ⟨rfl, holds⟩
  · rw [load_refused s shape offset len holds.sound inside, if_neg inside]
    exact ⟨rfl, holds⟩

theorem agrees_store (offset : Nat) (bytes : Bytes) : s.Agrees shape c (.store offset bytes) := by
  rw [Agrees]
  simp only [perform, Copies.perform]
  by_cases inside : offset + bytes.size ≤ shape.bodyReserved
  · obtain ⟨next, stored, sound, -, saved, payload⟩ :=
      store_payload s shape offset bytes holds.sound (holds.sound.payload.symm ▸ inside)
    rw [stored, if_pos inside]
    refine ⟨rfl, sound, holds.inside, ?_, ?_⟩
    · intro i front
      have same : next.bitmapLen = s.bitmapLen := sound.bitmap.trans holds.sound.bitmap.symm
      rw [saved i (same ▸ front), holds.bits i (same ▸ front)]
    · intro k
      rw [payload k, holds.bytes k]
  · rw [store_refused s shape offset bytes holds.sound inside, if_neg inside]
    exact ⟨rfl, holds⟩

theorem agrees_of_holds (op : Op) : s.Agrees shape c op := by
  cases op with
  | mark index => exact agrees_mark s shape c holds index
  | ask index => exact agrees_ask s shape c holds index
  | clear => exact agrees_clear s shape c holds
  | count => exact ⟨congrArg Answer.number (count_marked s shape c holds), holds⟩
  | load offset len => exact agrees_load s shape c holds offset len
  | store offset bytes => exact agrees_store s shape c holds offset bytes

theorem perform_all_agrees (ops : List Op) :
    (s.performAll ops).1 = (c.performAll shape ops).1 ∧ (s.performAll ops).2.Holds shape (c.performAll shape ops).2 := by
  induction ops generalizing s c with
  | nil => exact ⟨rfl, holds⟩
  | cons op ops ih =>
      obtain ⟨answer, next⟩ := agrees_of_holds s shape c holds op
      obtain ⟨answers, last⟩ := ih (s.perform op).2 (c.perform shape op).2 next
      exact ⟨congrArg₂ List.cons answer answers, last⟩

end

def Op.Covers (size offset : Nat) : Op → Prop
  | .store first bytes => first + bytes.size ≤ size ∧ first ≤ offset ∧ offset < first + bytes.size
  | _ => False

-- The byte at an offset is that of the last store that reaches it, or `b` where none does.
def Op.StoredLast (size offset : Nat) (b : UInt8) (ops : List Op) (found : UInt8) : Prop :=
  (∃ before first bytes after, ops = before ++ .store first bytes :: after ∧ Op.Covers size offset (.store first bytes) ∧
    found = bytes.getD (offset - first) 0 ∧ ∀ op ∈ after, ¬ Op.Covers size offset op) ∨
  ((∀ op ∈ ops, ¬ Op.Covers size offset op) ∧ found = b)

section

variable (shape : Shape) (c : Copies)

theorem mem_marked_step (op : Op) (index : Nat) (inside : index < shape.chunks) :
    index ∈ (c.perform shape op).2.marked ↔ op = .mark index ∨ (index ∈ c.marked ∧ .clear ≠ op) := by
  cases op with
  | mark other =>
      by_cases same : other = index
      · subst same
        simp [Copies.perform, inside]
      · have different : index ≠ other := Ne.symm same
        by_cases chunk : other < shape.chunks <;> simp [Copies.perform, chunk, same, different]
  | clear => simp [Copies.perform]
  | ask other => by_cases chunk : other < shape.chunks <;> simp [Copies.perform, chunk]
  | count => simp [Copies.perform]
  | load offset len => by_cases range : offset + len ≤ shape.bodyReserved <;> simp [Copies.perform, range]
  | store offset bytes => by_cases range : offset + bytes.size ≤ shape.bodyReserved <;> simp [Copies.perform, range]

theorem mem_marked (ops : List Op) (index : Nat) (inside : index < shape.chunks) :
    index ∈ (c.performAll shape ops).2.marked ↔ Op.MarkedLast index ops ∨ (index ∈ c.marked ∧ .clear ∉ ops) := by
  induction ops generalizing c with
  | nil => simp [Copies.performAll, Op.MarkedLast]
  | cons op ops ih =>
      have rest := ih (c.perform shape op).2
      rw [mem_marked_step shape c op index inside] at rest
      simp only [Copies.performAll, List.mem_cons, not_or]
      rw [rest, marked_cons]
      tauto

theorem bytes_step (op : Op) (k : Nat) :
    (∃ first bytes, op = .store first bytes ∧ op.Covers shape.bodyReserved k ∧
        (c.perform shape op).2.bytes k = bytes.getD (k - first) 0) ∨
      (¬ op.Covers shape.bodyReserved k ∧ (c.perform shape op).2.bytes k = c.bytes k) := by
  cases op with
  | store first bytes =>
      by_cases range : first + bytes.size ≤ shape.bodyReserved
      · by_cases reached : first ≤ k ∧ k < first + bytes.size
        · refine Or.inl ⟨first, bytes, rfl, ⟨range, reached⟩, ?_⟩
          simp only [Copies.perform, if_pos range, if_pos reached]
        · refine Or.inr ⟨fun covers => reached covers.2, ?_⟩
          simp only [Copies.perform, if_pos range, if_neg reached]
      · refine Or.inr ⟨fun covers => range covers.1, ?_⟩
        simp only [Copies.perform, if_neg range]
  | mark index =>
      refine Or.inr ⟨id, ?_⟩
      by_cases chunk : index < shape.chunks <;> simp [Copies.perform, chunk]
  | ask index =>
      refine Or.inr ⟨id, ?_⟩
      by_cases chunk : index < shape.chunks <;> simp [Copies.perform, chunk]
  | clear => exact Or.inr ⟨id, rfl⟩
  | count => exact Or.inr ⟨id, rfl⟩
  | load offset len =>
      refine Or.inr ⟨id, ?_⟩
      by_cases range : offset + len ≤ shape.bodyReserved <;> simp [Copies.perform, range]

theorem bytes_stored (ops : List Op) (k : Nat) :
    Op.StoredLast shape.bodyReserved k (c.bytes k) ops ((c.performAll shape ops).2.bytes k) := by
  induction ops generalizing c with
  | nil =>
      refine Or.inr ⟨fun op member => ?_, rfl⟩
      cases member
  | cons op ops ih =>
      rcases ih (c.perform shape op).2 with ⟨before, first, bytes, after, rfl, covers, value, kept⟩ | ⟨kept, value⟩
      · exact Or.inl ⟨op :: before, first, bytes, after, rfl, covers, value, kept⟩
      · rcases bytes_step shape c op k with ⟨first, bytes, rfl, covers, stored⟩ | ⟨apart, same⟩
        · exact Or.inl ⟨[], first, bytes, ops, rfl, covers, value.trans stored, kept⟩
        · refine Or.inr ⟨fun other member => ?_, value.trans same⟩
          rcases List.mem_cons.mp member with rfl | later
          · exact apart
          · exact kept other later

end

-- What a store remembers of the operations on it: which chunks are saved, how many, and every byte of the body.
structure Remembers (shape : Shape) (ops : List Op) (last : SwapStore) : Prop where
  marked : ∀ i, i < shape.chunks → ∃ saved, last.isDirty i = .ok saved ∧ (saved = true ↔ Op.MarkedLast i ops)
  counted : ∃ marked : Finset Nat, (∀ i, i ∈ marked ↔ i < shape.chunks ∧ Op.MarkedLast i ops) ∧
    last.dirtyCount = marked.card
  loaded : ∀ offset len, offset + len ≤ shape.bodyReserved → ∃ bytes, last.load offset len = .ok bytes ∧ bytes.size = len ∧
    ∀ k, k < len → Op.StoredLast shape.bodyReserved (offset + k) 0 ops (bytes.getD k 0)

-- The bits and the payload of a store do not meet, no operation reaches past its end, and each chunk has a part of its own.
structure Parted (shape : Shape) (s : SwapStore) : Prop where
  refused : ∀ op failure, (s.perform op).1 = .refused failure → (s.perform op).2 = s
  chunk_refused : ∀ i, shape.chunks ≤ i → s.isDirty i = .error (.invariant (.chunkOutside i shape.chunks)) ∧
    s.setDirty i = .error (.invariant (.chunkOutside i shape.chunks))
  range_refused : ∀ offset len, shape.bodyReserved < offset + len →
    s.load offset len = .error (.invariant (.payloadRange offset len shape.bodyReserved)) ∧
    ∀ bytes : Bytes, bytes.size = len → s.store offset bytes = .error (.invariant (.payloadRange offset len shape.bodyReserved))
  bits_kept : ∀ offset bytes next, s.store offset bytes = .ok next →
    (∀ i, next.isDirty i = s.isDirty i) ∧ next.dirtyCount = s.dirtyCount
  payload_kept : ∀ offset len, s.clearDirty.load offset len = s.load offset len ∧
    ∀ i next, s.setDirty i = .ok next → next.load offset len = s.load offset len
  bit_mapped : ∀ i, i < shape.chunks → i / 8 < s.bitmapLen
  payload_mapped : s.bitmapLen + shape.bodyReserved = s.map.len
  chunk_legal : ∀ i c, i < shape.chunks → shape.layout.chunk i = .ok c →
    (∃ bytes, s.load c.bodyOffset c.fillLen = .ok bytes ∧ bytes.size = c.fillLen) ∧
    ∀ bytes : Bytes, bytes.size = c.fillLen → ∃ next, s.store c.bodyOffset bytes = .ok next
  chunk_apart : ∀ i j c d, i < shape.chunks → j < shape.chunks → i ≠ j → shape.layout.chunk i = .ok c →
    shape.layout.chunk j = .ok d → c.bodyOffset + c.fillLen ≤ d.bodyOffset ∨ d.bodyOffset + d.fillLen ≤ c.bodyOffset

theorem perform_refused (s : SwapStore) (op : Op) (failure : Failure) (refused : (s.perform op).1 = .refused failure) :
    (s.perform op).2 = s := by
  cases op with
  | mark index =>
      cases marked : s.setDirty index with
      | ok next => simp [perform, marked] at refused
      | error cause => simp only [perform, marked]
  | ask index =>
      cases asked : s.isDirty index with
      | ok saved => simp [perform, asked] at refused
      | error cause => simp only [perform, asked]
  | load offset len =>
      cases loaded : s.load offset len with
      | ok bytes => simp [perform, loaded] at refused
      | error cause => simp only [perform, loaded]
  | store offset bytes =>
      cases stored : s.store offset bytes with
      | ok next => simp [perform, stored] at refused
      | error cause => simp only [perform, stored]
  | clear => cases refused
  | count => cases refused

section

variable (s : SwapStore) (shape : Shape) (c : Copies)

theorem is_dirty_congr (next : SwapStore) (sound : s.Sound shape) (nextSound : next.Sound shape)
    (same : ∀ i, i / 8 < s.bitmapLen → next.saved i = s.saved i) (i : Nat) : next.isDirty i = s.isDirty i := by
  by_cases inside : i < shape.chunks
  · have chunk : i < s.chunkCount := sound.chunks.symm ▸ inside
    rw [is_dirty_saved s i chunk, is_dirty_saved next i (nextSound.chunks.symm ▸ inside),
      same i (bit_in_bitmap s shape i sound chunk)]
  · rw [is_dirty_refused s shape i sound inside, is_dirty_refused next shape i nextSound inside]

theorem dirty_count_congr (next : SwapStore) (sound : s.Sound shape) (nextSound : next.Sound shape)
    (same : ∀ i, i / 8 < s.bitmapLen → next.saved i = s.saved i) : next.dirtyCount = s.dirtyCount := by
  have length : next.bitmapLen = s.bitmapLen := nextSound.bitmap.trans sound.bitmap.symm
  rw [dirty_count_eq s shape sound, dirty_count_eq next shape nextSound, length]
  congr 1
  apply Finset.filter_congr
  intro i inside
  have front := Finset.mem_range.mp inside
  rw [same i (by omega)]

theorem load_congr (next : SwapStore) (sound : s.Sound shape) (nextSound : next.Sound shape)
    (same : ∀ k, next.payload k = s.payload k) (offset len : Nat) : next.load offset len = s.load offset len := by
  by_cases inside : offset + len ≤ shape.bodyReserved
  · rw [load_payload s shape offset len sound (sound.payload.symm ▸ inside),
      load_payload next shape offset len nextSound (nextSound.payload.symm ▸ inside)]
    congr 1
    simp only [SparseBytes.slice]
    congr 1
    funext k
    have byte := same (offset + k.val)
    simp only [payload, ← Nat.add_assoc] at byte
    exact byte
  · rw [load_refused s shape offset len sound inside, load_refused next shape offset len nextSound inside]

theorem bits_kept (offset : Nat) (bytes : Bytes) (next : SwapStore) (sound : s.Sound shape)
    (stored : s.store offset bytes = .ok next) :
    (∀ i, next.isDirty i = s.isDirty i) ∧ next.dirtyCount = s.dirtyCount := by
  by_cases inside : offset + bytes.size ≤ shape.bodyReserved
  · obtain ⟨other, storedOther, otherSound, -, saved, -⟩ :=
      store_payload s shape offset bytes sound (sound.payload.symm ▸ inside)
    cases storedOther.symm.trans stored
    exact ⟨is_dirty_congr s shape next sound otherSound saved, dirty_count_congr s shape next sound otherSound saved⟩
  · rw [store_refused s shape offset bytes sound inside] at stored
    cases stored

theorem payload_kept (offset len i : Nat) (next : SwapStore) (sound : s.Sound shape) (marked : s.setDirty i = .ok next) :
    next.load offset len = s.load offset len := by
  by_cases inside : i < shape.chunks
  · obtain ⟨other, markedOther, otherSound, -, -, payload⟩ :=
      set_dirty_saved s shape i sound (sound.chunks.symm ▸ inside)
    cases markedOther.symm.trans marked
    exact load_congr s shape next sound otherSound payload offset len
  · rw [set_dirty_refused s shape i sound inside] at marked
    cases marked

theorem parted_of_sound (sound : s.Sound shape) : s.Parted shape where
  refused := perform_refused s
  chunk_refused i outside :=
    ⟨is_dirty_refused s shape i sound (Nat.not_lt.mpr outside), set_dirty_refused s shape i sound (Nat.not_lt.mpr outside)⟩
  range_refused offset len outside := by
    refine ⟨load_refused s shape offset len sound (Nat.not_le.mpr outside), ?_⟩
    rintro bytes rfl
    exact store_refused s shape offset bytes sound (Nat.not_le.mpr outside)
  bits_kept offset bytes next stored := bits_kept s shape offset bytes next sound stored
  payload_kept offset len :=
    ⟨load_congr s shape s.clearDirty sound (clear_dirty_sound s shape sound) (clear_dirty_payload s) offset len,
      fun i next marked => payload_kept s shape offset len i next sound marked⟩
  bit_mapped i inside := bit_in_bitmap s shape i sound (sound.chunks.symm ▸ inside)
  payload_mapped := by rw [sound.len, sound.payload]
  chunk_legal i c inside given := by
    obtain rfl := Except.ok.inj (given.symm.trans (shape.layout_chunk i))
    have fits := shape.piece_end_le i inside
    refine ⟨⟨_, load_payload s shape _ _ sound (sound.payload.symm ▸ fits), SparseBytes.size_slice _ _ _⟩, ?_⟩
    intro bytes size
    obtain ⟨next, stored, -⟩ := store_payload s shape (shape.piece i).bodyOffset bytes sound
      (sound.payload.symm ▸ size.symm ▸ fits)
    exact ⟨next, stored⟩
  chunk_apart i j c d first second different given other := by
    obtain rfl := Except.ok.inj (given.symm.trans (shape.layout_chunk i))
    obtain rfl := Except.ok.inj (other.symm.trans (shape.layout_chunk j))
    have filled := shape.piece_fill_pos i first
    have filledOther := shape.piece_fill_pos j second
    rw [← not_lt, ← not_lt, ← not_and_or]
    rintro ⟨low, high⟩
    -- The later of the two starts would lie in both chunks, and division finds one number for it.
    have firstOf := shape.piece_of_offset (max (shape.piece i).bodyOffset (shape.piece j).bodyOffset) i first
    have secondOf := shape.piece_of_offset (max (shape.piece i).bodyOffset (shape.piece j).bodyOffset) j second
    exact different ((firstOf.mp (by omega)).2.symm.trans (secondOf.mp (by omega)).2)

theorem remembers_of_holds (ops : List Op) (holds : s.Holds shape (Copies.none.performAll shape ops).2) :
    Remembers shape ops s where
  marked i inside := by
    have chunk : i < s.chunkCount := holds.sound.chunks.symm ▸ inside
    refine ⟨_, is_dirty_saved s i chunk, ?_⟩
    rw [holds.bits i (bit_in_bitmap s shape i holds.sound chunk), decide_eq_true_iff,
      mem_marked shape Copies.none ops i inside]
    simp [Copies.none]
  counted := by
    refine ⟨_, fun i => ?_, count_marked s shape _ holds⟩
    constructor
    · intro member
      have inside := holds.inside i member
      rw [mem_marked shape Copies.none ops i inside] at member
      exact ⟨inside, by simpa [Copies.none] using member⟩
    · intro given
      rw [mem_marked shape Copies.none ops i given.1]
      exact Or.inl given.2
  loaded offset len inside := by
    refine ⟨_, load_copies s shape _ holds offset len inside, Array.size_ofFn, fun k within => ?_⟩
    rw [Array.getD_eq_getD_getElem?, Array.getElem?_ofFn, dif_pos within, Option.getD_some]
    exact bytes_stored shape Copies.none ops (offset + k)

end

theorem holds_created (host : Host) (used : List Span) (directory : String) (shape : Shape) (s : SwapStore)
    (created : create host used directory shape.layout = .ok s) : s.Holds shape Copies.none := by
  obtain ⟨base, rfl⟩ := created_eq shape host used directory s created
  exact ⟨fresh_sound shape base, fun i member => absurd member (Finset.notMem_empty i), fun i _ => fresh_saved shape base i,
    fun k => SparseBytes.byte_empty _⟩

theorem history_of_copies (host : Host) (used : List Span) (directory : String) (shape : Shape) (s : SwapStore)
    (ops : List Op) (created : create host used directory shape.layout = .ok s) :
    (s.performAll ops).1 = (Copies.none.performAll shape ops).1 ∧ Remembers shape ops (s.performAll ops).2 ∧
      Parted shape (s.performAll ops).2 := by
  obtain ⟨answers, last⟩ := perform_all_agrees s shape Copies.none (holds_created host used directory shape s created) ops
  exact ⟨answers, remembers_of_holds _ shape ops last, parted_of_sound _ shape last.sound⟩

end

-- Nine chunks of a page each, so that the bit of the last one stands in a byte of its own.
def ninePages : Shape where
  headerSize := 0
  elementCount := 9
  stride := Page.size
  perChunk := 1
  stride_pos := Page.size_pos
  perChunk_pos := Nat.one_pos
  chunk_pages := Page.one_whole
  chunk_word := Page.one_word
  size_le := by decide

theorem history_of_ninth_chunk : ∃ s, create (Host.plain []) [] "swap" ninePages.layout = .ok s ∧
    (s.performAll [.mark 8, .store 32768 #[7], .mark 9, .count, .load 32768 2, .clear, .ask 8]).1 =
      [.done, .done, .refused (.invariant (.chunkOutside 9 9)), .number 1, .bytes #[7, 0], .done, .bit false] := by
  have created : create (Host.plain []) [] "swap" ninePages.layout = .ok {
      map := { base := Host.lowest, len := 10 * Page.size, shared := true, bytes := .empty }
      bitmapLen := Page.size, payloadLen := 9 * Page.size, chunkCount := 9 } := by decide +kernel
  refine ⟨_, created, ?_⟩
  exact (history_of_copies (Host.plain []) [] "swap" ninePages _
    [.mark 8, .store 32768 #[7], .mark 9, .count, .load 32768 2, .clear, .ask 8] created).1.trans rfl

end DemandPaging.SwapStore
