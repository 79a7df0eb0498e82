import Mathlib.Logic.Relation
import DemandPaging.Proofs.Ensures
import DemandPaging.Proofs.Ledger

set_option autoImplicit false

namespace DemandPaging

theorem Pager.pop_front (q next : CircularQueue Residency) (oldest : Residency) (wf : q.WellFormed)
    (popped : q.pop = some (oldest, next)) :
    next.WellFormed ∧ q.toList = oldest :: next.toList ∧ next.len + 1 = q.len := by
  rcases q.pop_cases wf with ⟨none, -⟩ | ⟨first, rest, some, restWf, front, len⟩
  · rw [none] at popped
    cases popped
  · rw [some] at popped
    cases popped
    exact ⟨restWf, front, len⟩

variable [Platform]

namespace Managed

def contents (o : Managed) (i : Nat) : Bytes :=
  o.mapping.bytes.slice (o.shape.headerPadded + (o.shape.piece i).bodyOffset) (o.shape.piece i).fillLen

def without (o : Managed) (i : Nat) : SparseBytes :=
  o.mapping.bytes.drop ((o.shape.headerPadded + (o.shape.piece i).bodyOffset) / Page.size)
    (Page.count (o.shape.piece i).fillLen)

-- What giving back a chunk makes of its object. Its pages go; if its bytes are no longer those that were recorded and the
-- object has a store, they are saved.
structure Evicted (o : Managed) (r : Residency) (saved : Bool) (later : Managed) : Prop where
  rest : later = { o with mapping := { o.mapping with bytes := o.without r.chunk }, swap := later.swap }
  kept : saved = false → later.swap = o.swap ∧ ∀ s, o.swap = some s → Digest.of (o.contents r.chunk) = r.digest
  stored : saved = true → Digest.of (o.contents r.chunk) ≠ r.digest ∧ ∃ s marked, o.swap = some s ∧
    later.swap = some marked ∧ s.Takes o.shape r.chunk (o.contents r.chunk) marked

section

variable (o later : Managed) (r : Residency) (saved : Bool)

theorem size_contents (i : Nat) : (o.contents i).size = (o.shape.piece i).fillLen := SparseBytes.size_slice _ _ _

theorem evicted_becomes (evicted : o.Evicted r saved later) : o.Becomes later := by
  have store : (later.swap.map fun s => s.map.span) = o.swap.map fun s => s.map.span := by
    cases saved with
    | false => rw [(evicted.kept rfl).1]
    | true =>
        obtain ⟨-, s, marked, before, after, takes⟩ := evicted.stored rfl
        rw [before, after, Option.map_some, Option.map_some, takes.span]
  have rest := evicted.rest
  generalize later.swap = after at rest store
  subst rest
  exact ⟨rfl, rfl, rfl, rfl, store⟩

theorem evicted_sound (evicted : o.Evicted r saved later) (sound : o.Sound) : later.Sound := by
  have rest := evicted.rest
  have swap : (∀ s, later.swap = some s → s.Sound o.shape) ∧ later.swap.isSome = o.swap.isSome := by
    cases saved with
    | false =>
        rw [(evicted.kept rfl).1]
        exact ⟨sound.store, rfl⟩
    | true =>
        obtain ⟨-, s, marked, before, after, takes⟩ := evicted.stored rfl
        rw [before, after]
        refine ⟨fun s same => ?_, rfl⟩
        cases same
        exact takes.sound
  generalize later.swap = after at rest swap
  subst rest
  refine ⟨sound.layout, sound.len, sound.own, fun page header => ?_, swap.1, fun writable body => ?_⟩
  · have behind := o.shape.piece_behind_header r.chunk page header
    simp only [without, SparseBytes.present_drop, sound.header page header, Bool.and_true]
    simp [behind]
  · rw [swap.2]
    exact sound.writable writable body

theorem release_chunk (host : Host) (i : Nat) (sound : o.Sound) (inside : i < o.shape.chunks) :
    o.mapping.release host (o.shape.headerPadded + (o.shape.piece i).bodyOffset) (o.shape.piece i).fillLen =
      .ok { o.mapping with bytes := o.without i } ∨
    ¬ host.Releases ∧ ∃ cause,
      o.mapping.release host (o.shape.headerPadded + (o.shape.piece i).bodyOffset) (o.shape.piece i).fillLen =
        .error (.resource "madvise" cause) := by
  have ends := o.shape.piece_end_le i inside
  have mapped : o.shape.headerPadded + (o.shape.piece i).bodyOffset + (o.shape.piece i).fillLen ≤ o.mapping.len := by
    rw [sound.len, Shape.size]
    omega
  have positive := Nat.ne_of_gt (o.shape.piece_fill_pos i inside)
  have whole : (o.shape.headerPadded + (o.shape.piece i).bodyOffset) % Page.size = 0 :=
    Nat.mod_eq_zero_of_dvd (Nat.dvd_add o.shape.header_whole (o.shape.piece_offset_whole i inside))
  simp only [Mapping.release, Mapping.check, if_pos mapped, bind, Except.bind, if_neg positive, whole, ne_eq,
    not_true_eq_false, if_false, Host.ask, sound.own, Bool.false_eq_true]
  generalize span : (⟨_, _⟩ : Span) = taken
  cases answer : host.refuse (.release taken) with
  | none => exact .inl rfl
  | some cause =>
      refine .inr ⟨fun releases => ?_, cause, rfl⟩
      cases (releases taken).symm.trans answer

theorem evicted_has_body (evicted : o.Evicted r saved later) (k : Nat) (chunk : r.chunk < o.shape.chunks)
    (body : k < o.shape.bodyReserved) :
    later.hasBody k = (!decide (k / o.shape.chunkLen = r.chunk) && o.hasBody k) := by
  have pages := o.shape.piece_pages r.chunk k chunk body
  rw [evicted.rest]
  simp only [hasBody, Mapping.isPresent, without, SparseBytes.present_drop]
  congr 2
  exact decide_eq_decide.mpr pages

end

end Managed

namespace Pager

def relieved (p : Pager) (r : Residency) (saved : Bool) (later : Managed) : Pager :=
  { p with
    objects := revised p.objects later
    resident := p.resident - r.len
    counters := Counters.setResident
      { p.counters with
        writebacks := p.counters.writebacks + saved.toNat
        reclaims := p.counters.reclaims + 1 }
      (p.resident - r.len)
    journal := .reclaimed r.owner r.chunk saved :: p.journal }

-- The system did not take the pages of a chunk back. Nothing was counted but that the chunk may have been saved.
structure Unreleased (host : Host) (p : Pager) (halt : Halt) (q : Pager) : Prop where
  strict : ¬ host.Releases
  cause : ∃ cause, halt = .failed (.resource "madvise" cause)
  counters : ∃ writebacks, q.counters = { p.counters with writebacks }
  journal : q.journal = p.journal

section

variable (p : Pager) (o : Managed) (r : Residency)

theorem save_changed_ensures (s : SwapStore) (ids : (p.objects.map Managed.id).Nodup) (member : o ∈ p.objects)
    (sound : o.Sound) (of : r.Of o) (store : o.swap = some s) :
    Ensures (saveChanged o s (o.shape.headerPadded + (o.shape.piece r.chunk).bodyOffset) r) p
      (fun saved q =>
        (saved = false ∧ Digest.of (o.contents r.chunk) = r.digest ∧ q = p) ∨
        (saved = true ∧ Digest.of (o.contents r.chunk) ≠ r.digest ∧ ∃ marked,
          s.Takes o.shape r.chunk (o.contents r.chunk) marked ∧
          q = { p with
            objects := revised p.objects { o with swap := some marked }
            counters := { p.counters with writebacks := p.counters.writebacks + 1 } }))
      (fun _ _ => False) := by
  have mapped : o.shape.headerPadded + (o.shape.piece r.chunk).bodyOffset + (o.shape.piece r.chunk).fillLen ≤
      o.mapping.len := by
    have ends := o.shape.piece_end_le r.chunk of.chunk
    rw [sound.len, Shape.size]
    omega
  have read : o.mapping.read (o.shape.headerPadded + (o.shape.piece r.chunk).bodyOffset) r.len =
      .ok (o.contents r.chunk) := by
    rw [of.len]
    simp only [Mapping.read, Mapping.check, if_pos mapped]
    rfl
  have bodyOffset : Word.sub (o.shape.headerPadded + (o.shape.piece r.chunk).bodyOffset) o.layout.headerPadded =
      .ok (o.shape.piece r.chunk).bodyOffset := by
    rw [sound.layout]
    exact Word.sub_eq_ok.mpr ⟨Nat.le_add_right _ _, (Nat.add_sub_cancel_left _ _).symm⟩
  obtain ⟨stored, marked, storedEq, markedEq, takes⟩ :=
    s.store_marked o.shape r.chunk (o.contents r.chunk) (sound.store s store) of.chunk (o.size_contents r.chunk)
  rw [saveChanged]
  simp only [read, ensures_bind, ensures_attempt_ok, ensures_ite, ensures_pure]
  refine ⟨fun same => Or.inl ⟨trivial, same, trivial⟩, fun changed => ?_⟩
  simp only [bodyOffset, storedEq, markedEq, of.owner, count, ensures_word_ok, ensures_attempt_ok, ensures_modify]
  refine Or.inr ⟨trivial, changed, marked, takes, ?_⟩
  rw [modify_object_eq p o (fun x => { x with swap := some marked }) ids member rfl]

theorem release_ensures (saved : Bool) (swap : Option SwapStore) (ids : (p.objects.map Managed.id).Nodup)
    (member : o ∈ p.objects) (of : r.Of o) (enough : r.len ≤ p.resident) :
    Ensures (do
        let released ← attempt (.ok { o.mapping with bytes := o.without r.chunk })
        modify (·.modifyObject r.owner fun x => { x with mapping := released })
        giveBack r.len
        count fun c => { c with reclaims := c.reclaims + 1 }
        setResident (← get).resident
        record (.reclaimed r.owner r.chunk saved))
      { p with
        objects := revised p.objects { o with swap }
        counters := { p.counters with writebacks := p.counters.writebacks + saved.toNat } }
      (fun _ q => q = p.relieved r saved { o with mapping := { o.mapping with bytes := o.without r.chunk }, swap })
      (fun _ _ => False) := by
  have known : o.id ∈ p.objects.map Managed.id := List.mem_map_of_mem member
  have there : { o with swap } ∈ revised p.objects { o with swap } :=
    (mem_revised p.objects { o with swap } { o with swap } known).mpr (Or.inl rfl)
  have objects := modify_object_eq
    { p with
      objects := revised p.objects { o with swap }
      counters := { p.counters with writebacks := p.counters.writebacks + saved.toNat } }
    { o with swap } (fun x => { x with mapping := { o.mapping with bytes := o.without r.chunk } })
    ((revised_ids p.objects { o with swap }).symm ▸ ids) there rfl
  simp only [ensures_bind, ensures_attempt_ok, ensures_modify, of.owner, objects]
  rw [ensures_give_back _ _ _ _ (by exact enough)]
  simp only [ensures_count, ensures_get, ensures_set_resident, ensures_record, relieved, of.owner]
  rw [revised_revised]
  rfl

theorem reclaim_ensures (host : Host) (ids : (p.objects.map Managed.id).Nodup) (member : o ∈ p.objects) (sound : o.Sound)
    (of : r.Of o) (enough : r.len ≤ p.resident) :
    Ensures (reclaim host r) p (fun _ q => ∃ saved later, o.Evicted r saved later ∧ q = p.relieved r saved later)
      (fun halt q => Unreleased host p halt q) := by
  have found : p.object? r.owner = some o := (object_some_iff p o r.owner ids).mpr ⟨member, of.owner.symm⟩
  have offset : r.address - o.mapping.base = o.shape.headerPadded + (o.shape.piece r.chunk).bodyOffset := by
    rw [of.address, Nat.add_sub_cancel_left]
  have above : ¬ r.address < o.mapping.base := by
    rw [of.address]
    omega
  have unrevised : revised p.objects o = p.objects := revised_self p o ids member
  rw [reclaim]
  simp only [ensures_bind, ensures_get, found, if_neg above, offset, of.len]
  rcases o.release_chunk host r.chunk sound of.chunk with released | ⟨strict, cause, refused⟩
  · simp only [released]
    cases store : o.swap with
    | none =>
        have evicted : o.Evicted r false { o with mapping := { o.mapping with bytes := o.without r.chunk } } :=
          ⟨rfl, fun _ => ⟨rfl, fun s some => by rw [store] at some; cases some⟩, fun impossible => by cases impossible⟩
        have rest := release_ensures p o r false o.swap ids member of enough
        rw [unrevised, of.len] at rest
        exact ensures_mono _ _ _ _ _ _ rest (fun _ q same => ⟨false, _, evicted, same⟩) (fun _ _ => False.elim)
    | some s =>
        rw [ensures_bind]
        apply ensures_mono _ _ _ _ _ _ (save_changed_ensures p o r s ids member sound of store)
        · intro saved q done
          obtain ⟨rfl, same, rfl⟩ | ⟨rfl, changed, marked, takes, rfl⟩ := done
          · have evicted : o.Evicted r false { o with mapping := { o.mapping with bytes := o.without r.chunk } } :=
              ⟨rfl, fun _ => ⟨rfl, fun _ _ => same⟩, fun impossible => by cases impossible⟩
            have rest := release_ensures q o r false o.swap ids member of enough
            rw [unrevised, of.len] at rest
            exact ensures_mono _ _ _ _ _ _ rest (fun _ q same => ⟨false, _, evicted, same⟩) (fun _ _ => False.elim)
          · have evicted : o.Evicted r true
                { o with mapping := { o.mapping with bytes := o.without r.chunk }, swap := some marked } :=
              ⟨rfl, fun impossible => (by cases impossible), fun _ => ⟨changed, s, marked, store, rfl, takes⟩⟩
            have rest := release_ensures p o r true (some marked) ids member of enough
            rw [of.len] at rest
            exact ensures_mono _ _ _ _ _ _ rest (fun _ q same => ⟨true, _, evicted, same⟩) (fun _ _ => False.elim)
        · exact fun _ _ => False.elim
  · simp only [refused]
    cases store : o.swap with
    | none => exact ⟨strict, ⟨cause, rfl⟩, ⟨_, rfl⟩, rfl⟩
    | some s =>
        rw [ensures_bind]
        apply ensures_mono _ _ _ _ _ _ (save_changed_ensures p o r s ids member sound of store)
        · rintro saved q (⟨rfl, -, rfl⟩ | ⟨rfl, -, marked, -, rfl⟩)
          · exact ⟨strict, ⟨cause, rfl⟩, ⟨_, rfl⟩, rfl⟩
          · exact ⟨strict, ⟨cause, rfl⟩, ⟨_, rfl⟩, rfl⟩
        · exact fun _ _ => False.elim

theorem live_pop (queue : CircularQueue Residency) (front : p.queue.toList = r :: queue.toList) (len : 0 < r.len) :
    p.live = r :: { p with queue }.live := by
  simp only [live, front]
  exact List.filter_cons_of_pos (by simpa using len)

theorem live_pop_retired (queue : CircularQueue Residency) (front : p.queue.toList = r :: queue.toList)
    (len : r.len = 0) : p.live = { p with queue }.live := by
  simp only [live, front]
  exact List.filter_cons_of_neg (by simp [len])

theorem queued_pop (queue : CircularQueue Residency) (front : p.queue.toList = r :: queue.toList) :
    p.queuedBytes = r.len + { p with queue }.queuedBytes := by
  simp only [queued_bytes_eq, front, List.map_cons, List.sum_cons]

theorem resident_relieved (queue : CircularQueue Residency) (saved : Bool) (later : Managed)
    (live : p.live = r :: { p with queue }.live) (distinct : (p.live.map Residency.key).Nodup) (id : ObjectId) (i : Nat) :
    ({ p with queue }.relieved r saved later).Resident id i ↔ p.Resident id i ∧ (id, i) ≠ r.key := by
  rw [live, List.map_cons, List.nodup_cons] at distinct
  unfold Resident
  rw [live]
  constructor
  · intro given
    obtain ⟨s, member, key⟩ := given
    exact ⟨⟨s, List.mem_cons_of_mem r member, key⟩, fun same => distinct.1 (same ▸ key ▸ List.mem_map_of_mem member)⟩
  · intro given
    obtain ⟨⟨s, member, key⟩, other⟩ := given
    rcases List.mem_cons.mp member with rfl | member
    · exact absurd key.symm other
    · exact ⟨s, member, key⟩

theorem ledger_retired (queue : CircularQueue Residency) (ledger : Ledger p) (wf : queue.WellFormed)
    (front : p.queue.toList = r :: queue.toList) (len : r.len = 0) : Ledger { p with queue } := by
  have live := live_pop_retired p r queue front len
  have queued := queued_pop p r queue front
  rw [len, Nat.zero_add] at queued
  exact {
    marks := ledger.marks, index := ledger.index, indexed := ledger.indexed, ids := ledger.ids, sound := ledger.sound
    affordable := ledger.affordable, watched := ledger.watched, remains := ledger.remains
    queue := wf
    distinct := live ▸ ledger.distinct
    owned := live ▸ ledger.owned
    present := fun x member k body => by
      rw [Resident]
      rw [← live]
      exact ledger.present x member k body
    total := queued ▸ ledger.total
    published := ledger.published
    peak := ledger.peak }

theorem ledger_relieved (queue : CircularQueue Residency) (saved : Bool) (later : Managed) (ledger : Ledger p)
    (wf : queue.WellFormed) (front : p.queue.toList = r :: queue.toList) (member : o ∈ p.objects) (of : r.Of o)
    (evicted : o.Evicted r saved later) : Ledger ({ p with queue }.relieved r saved later) := by
  have positive := r.of_len_pos o of
  have live := live_pop p r queue front positive
  have queued := queued_pop p r queue front
  have becomes := o.evicted_becomes later r saved evicted
  have shape := o.becomes_shape later becomes
  have known : later.id ∈ p.objects.map Managed.id := becomes.id ▸ List.mem_map_of_mem member
  have members := fun x => mem_revised p.objects later x known
  have distinct := ledger.distinct
  rw [live, List.map_cons, List.nodup_cons] at distinct
  have total := ledger.total
  have catalogue : Catalogue ({ p with queue }.relieved r saved later) :=
    catalogue_revise p o _ later ledger.toCatalogue member becomes
      (o.evicted_sound later r saved evicted (ledger.sound o member)) rfl ⟨rfl, rfl, rfl, rfl⟩
  refine { catalogue with
    queue := wf, distinct := distinct.2, owned := ?_, present := ?_, total := ?_, published := rfl, peak := ?_ }
  · intro other otherMember
    exact owned_revised p o later other ledger.ids member becomes
      (ledger.owned other (live ▸ List.mem_cons_of_mem r otherMember))
  · intro x xMember k body
    rw [resident_relieved p r queue saved later live ledger.distinct]
    rcases (members x).mp xMember with rfl | ⟨xMember, apart⟩
    · rw [shape] at body ⊢
      rw [o.evicted_has_body x r saved evicted k of.chunk body, Bool.and_eq_true, ledger.present o member k body,
        becomes.id, Residency.key, of.owner]
      simp [and_comm]
    · rw [ledger.present x xMember k body]
      have otherOwner : (x.id, k / x.shape.chunkLen) ≠ r.key := fun same =>
        apart ((congrArg Prod.fst same).trans (of.owner.trans becomes.id.symm))
      simp [otherOwner]
  · show { p with queue }.queuedBytes = p.resident - r.len
    omega
  · have peak := ledger.peak
    simp only [relieved, Counters.setResident]
    omega

end

inductive Turn (p : Pager) : Pager → Prop where
  | retired (oldest : Residency) (queue : CircularQueue Residency) (popped : p.queue.pop = some (oldest, queue))
      (len : oldest.len = 0) : Turn p { p with queue }
  | evicted (oldest : Residency) (queue : CircularQueue Residency) (o later : Managed) (saved : Bool)
      (popped : p.queue.pop = some (oldest, queue)) (member : o ∈ p.objects) (of : oldest.Of o)
      (evicted : o.Evicted oldest saved later) : Turn p ({ p with queue }.relieved oldest saved later)

abbrev Turns : Pager → Pager → Prop := Relation.ReflTransGen Turn

theorem ledger_turn (p q : Pager) (ledger : Ledger p) (turn : Turn p q) : Ledger q := by
  cases turn with
  | retired oldest queue popped len =>
      obtain ⟨wf, front, -⟩ := pop_front p.queue queue oldest ledger.queue popped
      exact ledger_retired p oldest queue ledger wf front len
  | evicted oldest queue o later saved popped member of evicted =>
      obtain ⟨wf, front, -⟩ := pop_front p.queue queue oldest ledger.queue popped
      exact ledger_relieved p o oldest queue saved later ledger wf front member of evicted

theorem ledger_turns (p q : Pager) (ledger : Ledger p) (turns : Turns p q) : Ledger q := by
  induction turns with
  | refl => exact ledger
  | tail _ last ih => exact ledger_turn _ _ ih last

theorem turn_frame (p q : Pager) (turn : Turn p q) :
    q.settings = p.settings ∧ q.index = p.index ∧ q.watched = p.watched ∧ q.staging = p.staging ∧
      q.resident ≤ p.resident := by
  cases turn with
  | retired => exact ⟨rfl, rfl, rfl, rfl, Nat.le_refl _⟩
  | evicted => exact ⟨rfl, rfl, rfl, rfl, Nat.sub_le _ _⟩

theorem turns_frame (p q : Pager) (turns : Turns p q) :
    q.settings = p.settings ∧ q.index = p.index ∧ q.watched = p.watched ∧ q.staging = p.staging ∧
      q.resident ≤ p.resident := by
  induction turns with
  | refl => exact ⟨rfl, rfl, rfl, rfl, Nat.le_refl _⟩
  | tail _ last ih =>
      obtain ⟨settings, index, watched, staging, resident⟩ := ih
      obtain ⟨settings', index', watched', staging', resident'⟩ := turn_frame _ _ last
      exact ⟨settings'.trans settings, index'.trans index, watched'.trans watched, staging'.trans staging,
        Nat.le_trans resident' resident⟩

theorem turn_lasts (p q : Pager) (ids : (p.objects.map Managed.id).Nodup) (turn : Turn p q) : Lasts p q := by
  cases turn with
  | retired => exact lasts_of_objects p _ rfl
  | evicted oldest queue o later saved popped member of evicted =>
      exact lasts_revised p o _ later ids member (o.evicted_becomes later oldest saved evicted) rfl

theorem turns_last (p q : Pager) (ledger : Ledger p) (turns : Turns p q) : Lasts p q := by
  induction turns with
  | refl => exact lasts_of_objects p p rfl
  | tail before last ih => exact lasts_trans p _ _ ih (turn_lasts _ _ (ledger_turns p _ ledger before).ids last)

theorem turn_fewer (p q : Pager) (ledger : Ledger p) (turn : Turn p q) (id : ObjectId) (i : Nat)
    (resident : q.Resident id i) : p.Resident id i := by
  cases turn with
  | retired oldest queue popped len =>
      obtain ⟨-, front, -⟩ := pop_front p.queue queue oldest ledger.queue popped
      rw [Resident, live_pop_retired p oldest queue front len]
      exact resident
  | evicted oldest queue x later saved popped member of evicted =>
      obtain ⟨-, front, -⟩ := pop_front p.queue queue oldest ledger.queue popped
      have live := live_pop p oldest queue front (oldest.of_len_pos x of)
      exact ((resident_relieved p oldest queue saved later live ledger.distinct id i).mp resident).1

theorem turns_fewer (p q : Pager) (ledger : Ledger p) (turns : Turns p q) (id : ObjectId) (i : Nat)
    (resident : q.Resident id i) : p.Resident id i := by
  induction turns with
  | refl => exact resident
  | tail before last ih => exact ih (turn_fewer _ _ (ledger_turns p _ ledger before) last id i resident)

-- A pass takes another turn as long as `incoming` bytes more would pass the low mark.
def Goes (incoming : Nat) (p q : Pager) : Prop := p.settings.low < p.resident + incoming ∧ Turn p q

abbrev Pass (incoming : Nat) : Pager → Pager → Prop := Relation.ReflTransGen (Goes incoming)

theorem turns_of_pass (p q : Pager) (incoming : Nat) (pass : Pass incoming p q) : Turns p q := by
  induction pass with
  | refl => exact .refl
  | tail _ last ih => exact .tail ih last.2

-- What making room makes of the pager. If there is no room below the high mark, a pass makes room below the low mark.
inductive MadeRoom (p : Pager) (incoming : Nat) : Pager → Prop where
  | enough (room : p.resident + incoming ≤ p.settings.high) : MadeRoom p incoming p
  | passed (q : Pager) (above : p.settings.high < p.resident + incoming) (pass : Pass incoming p q)
      (room : q.resident + incoming ≤ p.settings.low) : MadeRoom p incoming q

def Stalls (host : Host) (p : Pager) (incoming : Nat) (halt : Halt) (q : Pager) : Prop :=
  ∃ (last : Pager) (queue : CircularQueue Residency), Pass incoming p last ∧ Unreleased host { last with queue } halt q

inductive NoRoom (host : Host) (p : Pager) (incoming : Nat) : Halt → Pager → Prop where
  | overflow (excess : ¬ p.resident + incoming < Word.limit) : NoRoom host p incoming (.arithmetic .addOverflow) p
  | exhausted (q : Pager) (above : p.settings.high < p.resident + incoming) (pass : Pass incoming p q)
      (fits : p.resident + incoming < Word.limit) (large : p.settings.low < incoming) (nothing : q.queue.len = 0) :
      NoRoom host p incoming (.failed (.budgetExhausted incoming 0 p.settings.low)) q
  | stalled (halt : Halt) (q : Pager) (stalls : Stalls host p incoming halt q) : NoRoom host p incoming halt q

theorem turns_of_room (p q : Pager) (incoming : Nat) (made : MadeRoom p incoming q) : Turns p q := by
  cases made with
  | enough room => exact .refl
  | passed q above pass room => exact turns_of_pass p q incoming pass

theorem room_made (p q : Pager) (incoming : Nat) (marks : p.settings.low < p.settings.high) (made : MadeRoom p incoming q) :
    q.resident + incoming ≤ p.settings.high := by
  cases made with
  | enough room => exact room
  | passed q above pass room => omega

theorem resident_of_no_records (p : Pager) (ledger : Ledger p) (none : p.queue.len = 0) : p.resident = 0 := by
  have nothing : p.queue.toList = [] := List.length_eq_zero_iff.mp (p.queue.length_to_list.trans none)
  rw [← ledger.total, queuedBytes, nothing]
  rfl

def Exhausts (p : Pager) (incoming : Nat) (halt : Halt) (q : Pager) : Prop :=
  Pass incoming p q ∧ halt = .failed (.budgetExhausted incoming 0 p.settings.low) ∧ p.settings.low < incoming ∧
    q.queue.len = 0

theorem exhausts_of_no_records (p : Pager) (incoming : Nat) (ledger : Ledger p) (none : p.queue.len = 0)
    (above : p.settings.low < p.resident + incoming) :
    Exhausts p incoming (.failed (.budgetExhausted incoming p.resident p.settings.low)) p := by
  rw [resident_of_no_records p ledger none] at above ⊢
  exact ⟨.refl, rfl, by omega, none⟩

theorem evict_after (host : Host) (p m : Pager) (incoming records : Nat) (goes : Goes incoming p m)
    (rest : Ensures (evict host incoming records) m
      (fun _ q => Pass incoming m q ∧ q.resident + incoming ≤ m.settings.low)
      (fun halt q => Exhausts m incoming halt q ∨ Stalls host m incoming halt q)) :
    Ensures (evict host incoming records) m
      (fun _ q => Pass incoming p q ∧ q.resident + incoming ≤ p.settings.low)
      (fun halt q => Exhausts p incoming halt q ∨ Stalls host p incoming halt q) := by
  obtain ⟨settings, -⟩ := turn_frame p m goes.2
  apply ensures_mono _ _ _ _ _ _ rest
  · exact fun _ q done => ⟨.head goes done.1, settings ▸ done.2⟩
  · rintro halt q (failed | ⟨last, queue, pass, unreleased⟩)
    · exact .inl ⟨.head goes failed.1, settings ▸ failed.2⟩
    · exact .inr ⟨last, queue, .head goes pass, unreleased⟩

theorem evict_ensures (host : Host) (p : Pager) (incoming records : Nat) (ledger : Ledger p)
    (enough : p.queue.len ≤ records) (fits : p.resident + incoming < Word.limit) :
    Ensures (evict host incoming records) p
      (fun _ q => Pass incoming p q ∧ q.resident + incoming ≤ p.settings.low)
      (fun halt q => Exhausts p incoming halt q ∨ Stalls host p incoming halt q) := by
  induction records generalizing p with
  | zero =>
      rw [evict]
      simp only [ensures_bind, ensures_get, ensures_word_add, ensures_ite, ensures_fail, ensures_pure]
      exact ⟨fun _ => ⟨fun above => .inl (exhausts_of_no_records p incoming ledger (Nat.le_zero.mp enough) above),
        fun below => ⟨.refl, Nat.not_lt.mp below⟩⟩, fun excess => absurd fits excess⟩
  | succ records ih =>
      rw [evict]
      simp only [ensures_bind, ensures_get, ensures_word_add, ensures_ite, ensures_pure]
      refine ⟨fun _ => ⟨fun above => ?_, fun below => ⟨.refl, Nat.not_lt.mp below⟩⟩, fun excess => absurd fits excess⟩
      have continues : ∀ m, Turn p m → m.queue.len + 1 = p.queue.len → Ensures (evict host incoming records) m
          (fun _ q => Pass incoming p q ∧ q.resident + incoming ≤ p.settings.low)
          (fun halt q => Exhausts p incoming halt q ∨ Stalls host p incoming halt q) := by
        intro m turn len
        obtain ⟨-, -, -, -, fewer⟩ := turn_frame p m turn
        exact evict_after host p m incoming records ⟨above, turn⟩
          (ih m (ledger_turn p m ledger turn) (by omega) (by omega))
      cases popped : p.queue.pop with
      | none =>
          have none : p.queue.len = 0 := by
            by_contra some
            rw [CircularQueue.pop, if_neg some] at popped
            cases popped
          exact .inl (exhausts_of_no_records p incoming ledger none above)
      | some front =>
          obtain ⟨oldest, queue⟩ := front
          obtain ⟨wf, front, len⟩ := pop_front p.queue queue oldest ledger.queue popped
          simp only [ensures_bind, ensures_set, ensures_ite]
          refine ⟨fun positive => ?_, fun zero => ?_⟩
          · have isLive : oldest ∈ p.live := by
              rw [live_pop p oldest queue front positive]
              exact List.mem_cons_self
            obtain ⟨o, member, of⟩ := ledger.owned oldest isLive
            have enough : oldest.len ≤ p.resident := by
              rw [← ledger.total, queued_pop p oldest queue front]
              omega
            apply ensures_mono _ _ _ _ _ _
              (reclaim_ensures { p with queue } o oldest host ledger.ids member (ledger.sound o member) of enough)
            · intro _ q done
              obtain ⟨saved, later, evicted, rfl⟩ := done
              exact continues _ (.evicted oldest queue o later saved popped member of evicted) len
            · exact fun halt q unreleased => .inr ⟨p, queue, .refl, unreleased⟩
          · exact continues _ (.retired oldest queue popped (by omega)) len

theorem make_room_ensures (host : Host) (p : Pager) (incoming : Nat) (ledger : Ledger p) :
    Ensures (makeRoom host incoming) p (fun _ q => MadeRoom p incoming q) (fun halt q => NoRoom host p incoming halt q) := by
  rw [makeRoom]
  simp only [ensures_bind, ensures_get, ensures_word_add, ensures_ite, ensures_pure]
  refine ⟨fun fits => ⟨fun above => ?_, fun below => .enough (Nat.not_lt.mp below)⟩, fun excess => .overflow excess⟩
  apply ensures_mono _ _ _ _ _ _ (evict_ensures host p incoming p.queue.len ledger (Nat.le_refl _) fits)
  · exact fun _ q done => .passed q above done.1 done.2
  · intro halt q failed
    rcases failed with ⟨pass, rfl, large, nothing⟩ | stalls
    · exact .exhausted q above pass fits large nothing
    · exact .stalled halt q stalls

end Pager

end DemandPaging
