import Mathlib.Data.Set.Insert
import DemandPaging.Proofs.Chronicle

set_option autoImplicit false

namespace DemandPaging

variable [Platform]

abbrev ChunkKey := ObjectId × Nat

def Event.object : Event → ObjectId
  | .filling call => call.id
  | .restored id _ => id
  | .installed id _ => id
  | .reclaimed id _ _ => id
  | .reset id => id

-- A filler is asked for a run of elements; the template says of which chunk.
def FillCall.chunk? (templates : ObjectId → Option Template) (call : FillCall) : Option ChunkKey :=
  (templates call.id).map fun t => (call.id, call.start / t.shape.perChunk)

theorem chunk_of_call (templates : ObjectId → Option Template) (t : Template) (id : ObjectId) (i : Nat)
    (known : templates id = some t) (inside : i < t.shape.chunks) : (t.call id i).chunk? templates = some (id, i) := by
  have start : (t.call id i).start = i * t.shape.perChunk := t.shape.piece_start i inside
  rw [FillCall.chunk?, show (t.call id i).id = id from rfl, known, Option.map_some, start,
    Nat.mul_div_cancel i t.shape.perChunk_pos]

structure Account where
  objects : Set ObjectId
  -- Oldest first.
  resident : List ChunkKey
  saved : Set ChunkKey
  journal : List Event

namespace Account

def empty : Account := ⟨∅, [], ∅, []⟩

def without (a : Account) (id : ObjectId) : Account :=
  { a with resident := a.resident.filter fun key => key.1 ≠ id, saved := a.saved \ {key | key.1 = id} }

inductive Supplies (templates : ObjectId → Option Template) (a : Account) (id : ObjectId) (i : Nat) : Event → Prop where
  | called (t : Template) (known : templates id = some t) (inside : i < t.shape.chunks) (unsaved : (id, i) ∉ a.saved) :
      Supplies templates a id i (.filling (t.call id i))
  | restored (t : Template) (known : templates id = some t) (writable : t.readOnly = false) (saved : (id, i) ∈ a.saved) :
      Supplies templates a id i (.restored id i)

theorem object_of_supplies (templates : ObjectId → Option Template) (a : Account) (id : ObjectId) (i : Nat) (e : Event)
    (supplies : Supplies templates a id i e) : e.object = id := by
  cases supplies <;> rfl

-- What can happen to an account, with the templates that objects were allocated with. The bytes for a chunk that is resident
-- are dropped.
inductive Happens (templates : ObjectId → Option Template) (a : Account) : Account → Prop where
  | appeared (id : ObjectId) (t : Template) (known : templates id = some t) (fresh : ∀ e ∈ a.journal, e.object ≠ id) :
      Happens templates a { a with objects := insert id a.objects }
  | vanished (id : ObjectId) : Happens templates a { a.without id with objects := a.objects \ {id} }
  | emptied (id : ObjectId) (there : id ∈ a.objects) :
      Happens templates a { a.without id with journal := .reset id :: a.journal }
  | dropped (id : ObjectId) (i : Nat) (e : Event) (there : id ∈ a.objects) (present : (id, i) ∈ a.resident)
      (supplies : Supplies templates a id i e) : Happens templates a { a with journal := e :: a.journal }
  | brought (id : ObjectId) (i : Nat) (e : Event) (there : id ∈ a.objects) (absent : (id, i) ∉ a.resident)
      (supplies : Supplies templates a id i e) : Happens templates a
        { a with resident := a.resident ++ [(id, i)], journal := .installed id i :: e :: a.journal }
  | reclaimed (id : ObjectId) (i : Nat) (rest : List ChunkKey) (saved : Bool) (t : Template) (there : id ∈ a.objects)
      (known : templates id = some t) (writable : saved = true → t.readOnly = false)
      (front : a.resident = (id, i) :: rest) (once : (id, i) ∉ rest) :
      Happens templates a
        { a with
          resident := rest
          saved := if saved then insert (id, i) a.saved else a.saved
          journal := .reclaimed id i saved :: a.journal }

abbrev Comes (templates : ObjectId → Option Template) : Account → Account → Prop :=
  Relation.ReflTransGen (Happens templates)

section

variable (templates : ObjectId → Option Template) (a : Account) (comes : Comes templates empty a)

include comes

theorem named_of_comes : (∀ id ∈ a.objects, ∃ t, templates id = some t) ∧ ∀ e ∈ a.journal, ∃ t, templates e.object = some t := by
  induction comes with
  | refl => exact ⟨fun id impossible => absurd impossible (Set.notMem_empty id), fun e impossible => by cases impossible⟩
  | tail before last ih =>
      obtain ⟨objects, journal⟩ := ih
      have grows : ∀ e : Event, e.object ∈ _ → ∀ e' ∈ e :: _, ∃ t, templates e'.object = some t := fun e there e' member => by
        rcases List.mem_cons.mp member with rfl | old
        · exact objects _ there
        · exact journal e' old
      cases last with
      | appeared id t known fresh =>
          refine ⟨fun other there => ?_, journal⟩
          rcases there with rfl | old
          · exact ⟨t, known⟩
          · exact objects other old
      | vanished id => exact ⟨fun other there => objects other there.1, journal⟩
      | emptied id there => exact ⟨objects, grows (.reset id) there⟩
      | dropped id i e there present supplies =>
          refine ⟨objects, grows e ?_⟩
          rwa [object_of_supplies templates _ id i e supplies]
      | brought id i e there absent supplies =>
          refine ⟨objects, fun x member => ?_⟩
          rcases List.mem_cons.mp member with rfl | older
          · exact objects id there
          · refine grows e ?_ x older
            rwa [object_of_supplies templates _ id i e supplies]
      | reclaimed id i rest saved t there known writable front once => exact ⟨objects, grows (.reclaimed id i saved) there⟩

end

end Account

namespace Pager

open Account

def savedChunks (objects : List Managed) : Set ChunkKey :=
  {key | ∃ o ∈ objects, o.id = key.1 ∧ key.2 < o.shape.chunks ∧ o.isSaved key.2 = true}

def account (p : Pager) : Account where
  objects := {id | id ∈ p.objects.map Managed.id}
  resident := p.live.map Residency.key
  saved := savedChunks p.objects
  journal := p.journal

section

variable (p : Pager) (o later : Managed)

theorem mem_saved_iff (ids : (p.objects.map Managed.id).Nodup) (member : o ∈ p.objects) (i : Nat) :
    (o.id, i) ∈ savedChunks p.objects ↔ i < o.shape.chunks ∧ o.isSaved i = true := by
  constructor
  · rintro ⟨x, xMember, same, saved⟩
    rwa [same_of_id p x o ids xMember member same] at saved
  · exact fun saved => ⟨o, member, rfl, saved⟩

theorem mem_saved_revised (member : o ∈ p.objects) (becomes : o.Becomes later) (id : ObjectId) (i : Nat) :
    (id, i) ∈ savedChunks (revised p.objects later) ↔
      if id = o.id then i < o.shape.chunks ∧ later.isSaved i = true else (id, i) ∈ savedChunks p.objects := by
  have known : later.id ∈ p.objects.map Managed.id := becomes.id ▸ List.mem_map_of_mem member
  have members := fun x => mem_revised p.objects later x known
  have shape := o.becomes_shape later becomes
  by_cases own : id = o.id
  · rw [if_pos own]
    constructor
    · rintro ⟨x, xMember, same, saved⟩
      rcases (members x).mp xMember with rfl | ⟨-, apart⟩
      · exact shape ▸ saved
      · exact absurd (same.trans (own.trans becomes.id.symm)) apart
    · exact fun saved => ⟨later, (members later).mpr (Or.inl rfl), becomes.id.trans own.symm, shape ▸ saved⟩
  · rw [if_neg own]
    constructor
    · rintro ⟨x, xMember, same, saved⟩
      rcases (members x).mp xMember with rfl | ⟨old, -⟩
      · exact absurd (same.symm.trans becomes.id) own
      · exact ⟨x, old, same, saved⟩
    · rintro ⟨x, xMember, same, saved⟩
      exact ⟨x, (members x).mpr (Or.inr ⟨xMember, fun equal => own (same.symm.trans (equal.trans becomes.id))⟩), same, saved⟩

theorem saved_revised (ids : (p.objects.map Managed.id).Nodup) (member : o ∈ p.objects) (becomes : o.Becomes later)
    (same : ∀ i, i < o.shape.chunks → later.isSaved i = o.isSaved i) :
    savedChunks (revised p.objects later) = savedChunks p.objects := by
  apply Set.ext
  rintro ⟨id, i⟩
  rw [mem_saved_revised p o later member becomes]
  by_cases own : id = o.id
  · subst own
    rw [if_pos rfl, mem_saved_iff p o ids member]
    exact and_congr_right fun inside => by rw [same i inside]
  · rw [if_neg own]

theorem saved_evicted (r : Residency) (saved : Bool) (ids : (p.objects.map Managed.id).Nodup) (member : o ∈ p.objects)
    (of : r.Of o) (evicted : o.Evicted r saved later) :
    savedChunks (revised p.objects later) =
      if saved then insert (r.owner, r.chunk) (savedChunks p.objects) else savedChunks p.objects := by
  have becomes := o.evicted_becomes later r saved evicted
  cases saved with
  | false =>
      refine saved_revised p o later ids member becomes fun i inside => ?_
      rw [Managed.isSaved, Managed.isSaved, (evicted.kept rfl).1]
  | true =>
      obtain ⟨-, s, marked, store, given, takes⟩ := evicted.stored rfl
      apply Set.ext
      rintro ⟨id, i⟩
      rw [mem_saved_revised p o later member becomes, if_pos rfl, Set.mem_insert_iff, of.owner, Prod.mk.injEq]
      by_cases own : id = o.id
      · subst own
        rw [if_pos rfl, mem_saved_iff p o ids member, Managed.isSaved, Managed.isSaved, store, given]
        simp only [Option.any_some, true_and]
        constructor
        · rintro ⟨inside, isSaved⟩
          rw [takes.saved i inside, Bool.or_eq_true, decide_eq_true_iff] at isSaved
          exact isSaved.imp_right fun before => ⟨inside, before⟩
        · rintro (rfl | ⟨inside, before⟩)
          · exact ⟨of.chunk, by rw [takes.saved _ of.chunk, decide_eq_true rfl, Bool.true_or]⟩
          · exact ⟨inside, by rw [takes.saved i inside, before, Bool.or_true]⟩
      · rw [if_neg own, or_iff_right fun same => own same.1]

end

section

variable (settings : Settings) (past : List Deed) (templates : ObjectId → Option Template) (m q : Pager)
  (told : Told settings past m) (knows : ∀ id t, template? past id = some t → templates id = some t)

include told

theorem told_turn (turn : Turn m q) : Told settings past q :=
  lasts_told settings past m q told (ledger_turn m q told.ledger turn) (turn_frame m q turn).1
    (turn_lasts m q told.ledger.ids turn)

theorem told_turns (turns : Turns m q) : Told settings past q := by
  induction turns with
  | refl => exact told
  | tail before last ih => exact told_turn settings past _ _ ih last

include knows

theorem comes_turn (turn : Turn m q) : Comes templates m.account q.account := by
  have ledger := told.ledger
  cases turn with
  | retired oldest queue popped len =>
      obtain ⟨-, front, -⟩ := pop_front m.queue queue oldest ledger.queue popped
      have same : ({ m with queue } : Pager).account = m.account := by
        simp only [account, live_pop_retired m oldest queue front len]
      rw [same]
  | evicted oldest queue o later saved popped member of evicted =>
      obtain ⟨-, front, -⟩ := pop_front m.queue queue oldest ledger.queue popped
      have live := live_pop m oldest queue front (oldest.of_len_pos o of)
      have distinct := ledger.distinct
      rw [live, List.map_cons, List.nodup_cons] at distinct
      have writable : saved = true → o.template.readOnly = false := by
        intro isSaved
        obtain ⟨-, s, -, store, -⟩ := evicted.stored isSaved
        refine Bool.eq_false_iff.mpr fun fixed => ?_
        rw [told.storeless o member fixed] at store
        cases store
      have after : ({ m with queue }.relieved oldest saved later).account =
          { m.account with
            resident := { m with queue }.live.map Residency.key
            saved := if saved then insert (oldest.owner, oldest.chunk) m.account.saved else m.account.saved
            journal := .reclaimed oldest.owner oldest.chunk saved :: m.journal } := by
        simp only [account, relieved, revised_ids, saved_evicted m o later oldest saved ledger.ids member of evicted]
        rfl
      rw [after]
      refine .single (.reclaimed oldest.owner oldest.chunk _ saved o.template ?_ ?_ writable ?_ distinct.1)
      · exact of.owner ▸ List.mem_map_of_mem member
      · exact of.owner ▸ knows o.id o.template (told.known o member)
      · simp only [account, live, List.map_cons, Residency.key]

theorem comes_turns (turns : Turns m q) : Comes templates m.account q.account := by
  induction turns with
  | refl => exact .refl
  | tail before last ih =>
      exact ih.trans (comes_turn settings past templates _ _ (told_turns settings past m _ told before) knows last)

end

theorem resident_iff_key (p : Pager) (id : ObjectId) (i : Nat) : (id, i) ∈ p.account.resident ↔ p.Resident id i :=
  List.mem_map

section

variable (settings : Settings) (past : List Deed) (templates : ObjectId → Option Template) (m supplied q : Pager) (o : Managed)
  (i : Nat) (bytes : Bytes) (told : Told settings past m)
  (knows : ∀ id t, template? past id = some t → templates id = some t) (member : o ∈ m.objects) (inside : i < o.shape.chunks)
  (sourced : Sourced m o i bytes supplied)

include told knows member inside sourced

theorem account_sourced : ∃ e, Supplies templates m.account o.id i e ∧
    supplied.account = { m.account with journal := e :: m.journal } := by
  have ledger := told.ledger
  have known := knows o.id o.template (told.known o member)
  cases sourced with
  | restored s staging store isSaved =>
      have writable : o.template.readOnly = false := by
        refine Bool.eq_false_iff.mpr fun fixed => ?_
        rw [told.storeless o member fixed] at store
        cases store
      refine ⟨_, .restored o.template known writable ?_, rfl⟩
      refine (mem_saved_iff m o ledger.ids member i).mpr ⟨inside, ?_⟩
      rw [Managed.isSaved, store]
      exact isSaved
  | filled filler byte old staging unsaved given made size =>
      have before := saved_revised m o { o with calls := o.calls + 1 } ledger.ids member ⟨rfl, rfl, rfl, rfl, rfl⟩
        fun _ _ => rfl
      refine ⟨_, .called o.template known inside fun given => ?_, ?_⟩
      · have isSaved := ((mem_saved_iff m o ledger.ids member i).mp given).2
        rw [unsaved] at isSaved
        cases isSaved
      · simp only [account, before, revised_ids]
        rfl

theorem happens_brought (calls : Nat) (there : { o with calls } ∈ supplied.objects)
    (installed : Installed supplied { o with calls } i bytes q) : Happens templates m.account q.account := by
  obtain ⟨e, supplies, taken⟩ :=
    account_sourced settings past templates m supplied o i bytes told knows member inside sourced
  obtain ⟨suppliedLedger, sameQueue, -⟩ := ledger_sourced m o i bytes supplied told.ledger member sourced
  have listed : o.id ∈ m.account.objects := List.mem_map_of_mem member
  have same : supplied.Resident o.id i ↔ (o.id, i) ∈ m.account.resident := by
    rw [resident_iff_key, Resident, Resident, live, live, sameQueue]
  cases installed with
  | present queue wf records resident =>
      have after : account { supplied with
          queue
          counters := (supplied.counters.setResident (supplied.resident + (o.shape.piece i).fillLen)).setResident
            supplied.resident } = { m.account with journal := e :: m.journal } := by
        rw [← taken]
        simp only [account, Pager.live, records]
      exact after ▸ .dropped o.id i e listed (same.mp resident) supplies
  | fresh queue wf records absent =>
      have resident : ((supplied.installing { o with calls } i bytes queue).live.map Residency.key) =
          supplied.account.resident ++ [(o.id, i)] := by
        rw [live_append supplied { o with calls } i bytes _ inside records, List.map_append]
        rfl
      have saved : savedChunks (supplied.installing { o with calls } i bytes queue).objects =
          savedChunks supplied.objects :=
        saved_revised supplied { o with calls } _ suppliedLedger.ids there (Managed.with_chunk_becomes _ i bytes)
          fun _ _ => rfl
      have objects : (supplied.installing { o with calls } i bytes queue).objects.map Managed.id =
          supplied.objects.map Managed.id := revised_ids _ _
      have whole : (supplied.installing { o with calls } i bytes queue).account =
          { supplied.account with
            resident := supplied.account.resident ++ [(o.id, i)]
            journal := .installed o.id i :: supplied.account.journal } := by
        rw [account, resident, saved, objects]
        rfl
      rw [whole, taken]
      exact .brought o.id i e listed (fun given => absent (same.mpr given)) supplies

end

section

variable (settings : Settings) (past : List Deed) (templates : ObjectId → Option Template) (p q : Pager) (address : Nat)
  (told : Told settings past p)

include told

theorem noticed_told : Told settings past p.noticed :=
  lasts_told settings past p p.noticed told (ledger_noticed p told.ledger) rfl (lasts_of_objects p _ rfl)

-- After an eviction pass there is room for the chunk, its bytes are taken from somewhere, and it comes in unless it is
-- there.
structure Answered (o : Managed) (i : Nat) (q : Pager) (roomy : Pager) (now : Managed) : Prop where
  room : MadeRoom p.noticed (o.shape.piece i).fillLen roomy
  told : Told settings past roomy
  member : now ∈ roomy.objects
  becomes : o.Becomes now
  comes : ∃ calls bytes supplied, Sourced roomy now i bytes supplied ∧ { now with calls } ∈ supplied.objects ∧
    Installed supplied { now with calls } i bytes q

theorem answered_of_resolved (resolved : Resolved p address q) :
    (q = p.noticed ∧ ∃ o ∈ p.objects, o.mapping.base ≤ address ∧ address - o.mapping.base < o.shape.headerPadded) ∨
    ∃ o ∈ p.objects, ∃ k, k < o.shape.bodyReserved ∧ address = o.mapping.base + (o.shape.headerPadded + k) ∧
      ∃ roomy now, Answered settings past p o (k / o.shape.chunkLen) q roomy now := by
  cases resolved with
  | header o member low high => exact .inl ⟨rfl, o, member, low, high⟩
  | body o now k calls bytes roomy supplied q member place inside room becomes nowMember sourced there installed =>
      have turns := turns_of_room p.noticed roomy _ room
      exact .inr ⟨o, member, k, inside, place, roomy, now, room,
        told_turns settings past p.noticed roomy (noticed_told settings past p told) turns, nowMember, becomes,
        calls, bytes, supplied, sourced, there, installed⟩

variable (knows : ∀ id t, template? past id = some t → templates id = some t)

include knows

theorem comes_answered (o now : Managed) (i : Nat) (roomy : Pager) (inside : i < o.shape.chunks)
    (answered : Answered settings past p o i q roomy now) :
    Comes templates p.account roomy.account ∧ Happens templates roomy.account q.account := by
  obtain ⟨room, roomyTold, nowMember, becomes, calls, bytes, supplied, sourced, there, installed⟩ := answered
  refine ⟨?_, ?_⟩
  · exact comes_turns settings past templates p.noticed roomy (noticed_told settings past p told) knows
      (turns_of_room p.noticed roomy _ room)
  · exact happens_brought settings past templates roomy supplied q now i bytes roomyTold knows nowMember
      (o.becomes_shape now becomes ▸ inside) sourced calls there installed

end

section

variable (settings : Settings) (past : List Deed) (templates : ObjectId → Option Template) (p q : Pager)
  (told : Told settings past p)

include told

theorem happens_allocated (host : Host) (id : ObjectId) (template : Template) (grant : Grant)
    (fresh : template? past id = none) (known : templates id = some template)
    (unnamed : ∀ e ∈ p.journal, e.object ≠ id) (allocated : Allocated p host id template grant q) :
    Happens templates p.account q.account := by
  obtain ⟨base, swap, index, placed, sound, listed, affordable, opens⟩ := allocated
  have kept : (p.objects.filter fun x => x.id ≠ (freshObject id template base swap).id) = p.objects := by
    refine List.filter_eq_self.mpr fun x member => decide_eq_true ?_
    rintro rfl
    have before := told.known x member
    rw [fresh] at before
    cases before
  have unsaved : ∀ i, (freshObject id template base swap).isSaved i = false := by
    intro i
    cases store : swap with
    | none => rfl
    | some s => exact (opens.sound s store).2 i
  have saved : savedChunks (freshObject id template base swap :: p.objects) = savedChunks p.objects := by
    apply Set.ext
    intro key
    simp only [savedChunks, Set.mem_ofPred_eq, List.mem_cons, exists_eq_or_imp, unsaved, Bool.false_eq_true, and_false,
      false_or]
  have objects : (freshObject id template base swap :: p.objects).map Managed.id = id :: p.objects.map Managed.id := rfl
  have after : (p.grown (freshObject id template base swap) index).account =
      { p.account with objects := insert id p.account.objects } := by
    simp only [grown, kept, account, saved, objects, List.mem_cons]
    rfl
  rw [after]
  exact .appeared id template known unnamed

theorem account_without (id : ObjectId) (q : Pager) (queue : q.queue = (p.retiring id).queue)
    (saved : ∀ other i, (other, i) ∈ savedChunks q.objects ↔ (other, i) ∈ savedChunks p.objects ∧ other ≠ id) :
    q.account = { p.account.without id with objects := q.account.objects, journal := q.journal } := by
  have live : q.live = p.live.filter fun r => r.owner ≠ id := by
    have retired := live_retiring p id told.ledger.queue
    simp only [Pager.live, queue] at retired ⊢
    exact retired
  have resident : q.live.map Residency.key = (p.live.map Residency.key).filter fun key => key.1 ≠ id := by
    rw [live, List.filter_map]
    rfl
  have kept : savedChunks q.objects = savedChunks p.objects \ {key | key.1 = id} := Set.ext fun key => saved key.1 key.2
  simp only [account, Account.without, resident, kept]

theorem comes_served (host : Host) (request : Request) (reply : Reply)
    (fresh : ∀ id template, request = .allocate id template → template? past id = none)
    (knows : ∀ id t, template? (.served request :: past) id = some t → templates id = some t)
    (unnamed : ∀ id template, request = .allocate id template → ∀ e ∈ p.journal, e.object ≠ id)
    (serves : Served host p request reply q) : Comes templates p.account q.account := by
  cases serves with
  | allocated id template grant q allocated =>
      exact .single (happens_allocated settings past templates p q told host id template grant (fresh id template rfl)
        (knows id template (template_allocated past id template)) (unnamed id template rfl) allocated)
  | refused request failure => exact .refl
  | freed o index member sound removed =>
      have account := account_without settings past p told o.id (p.freed o index) rfl fun other i => by
        constructor
        · rintro ⟨x, xMember, same, saved⟩
          obtain ⟨old, apart⟩ := List.mem_filter.mp xMember
          exact ⟨⟨x, old, same, saved⟩, same.symm.trans_ne (of_decide_eq_true apart)⟩
        · rintro ⟨⟨x, old, same, saved⟩, apart⟩
          exact ⟨x, List.mem_filter.mpr ⟨old, decide_eq_true (same.trans_ne apart)⟩, same, saved⟩
      have objects : (p.freed o index).account.objects = p.account.objects \ {o.id} := by
        apply Set.ext
        intro id
        constructor
        · intro listed
          obtain ⟨x, xMember, rfl⟩ := List.mem_map.mp listed
          obtain ⟨old, apart⟩ := List.mem_filter.mp xMember
          exact ⟨List.mem_map_of_mem old, of_decide_eq_true apart⟩
        · rintro ⟨listed, apart⟩
          obtain ⟨x, old, rfl⟩ := List.mem_map.mp listed
          exact List.mem_map_of_mem (List.mem_filter.mpr ⟨old, decide_eq_true apart⟩)
      rw [account, objects]
      exact .single (.vanished o.id)
  | emptied o member =>
      have becomes := cleared_becomes o
      have account := account_without settings past p told o.id (p.emptied o) rfl fun other i => by
        refine (mem_saved_revised p o (cleared o) member becomes other i).trans ?_
        by_cases own : other = o.id
        · rw [if_pos own]
          refine ⟨fun saved => ?_, fun given => absurd own given.2⟩
          rw [o.unsaved_cleared i (told.ledger.sound o member) saved.1] at saved
          cases saved.2
        · rw [if_neg own, and_iff_left own]
      have objects : (p.emptied o).account.objects = p.account.objects := by
        show {id | id ∈ (revised p.objects (cleared o)).map Managed.id} = {id | id ∈ p.objects.map Managed.id}
        rw [revised_ids]
      rw [account, objects]
      exact .single (.emptied o.id (List.mem_map_of_mem member))

end

theorem comes_of_story (settings : Settings) (past : List Deed) (p : Pager) (story : Story settings past p)
    (templates : ObjectId → Option Template) (knows : ∀ id t, template? past id = some t → templates id = some t) :
    Comes templates Account.empty p.account := by
  induction story generalizing templates with
  | started p start =>
      have objects := objects_start settings p start
      have live : p.live = [] := by
        refine List.eq_nil_iff_forall_not_mem.mpr fun r isLive => ?_
        obtain ⟨o, member, -⟩ := (ledger_start settings p start).owned r isLive
        rw [objects] at member
        cases member
      have account : p.account = Account.empty := by
        simp only [Pager.account, objects, live, journal_start settings p start, List.map_nil, savedChunks, List.not_mem_nil,
          false_and, exists_false]
        rfl
      rw [account]
  | served host past p q request reply before fresh serves ih =>
      have told := told_of_story settings past p before
      have earlier : ∀ id t, template? past id = some t → templates id = some t := fun id t known =>
        knows id t (template_served past request id t fresh known)
      refine (ih templates earlier).trans (comes_served settings past templates p q told host request reply fresh knows ?_ serves)
      rintro id template rfl e member rfl
      -- The record of what came before knows every object that the journal names.
      obtain ⟨t, known⟩ := (named_of_comes (template? past) p.account (ih _ fun _ _ => id)).2 e member
      rw [fresh e.object template rfl] at known
      cases known
  | faulted host past p q address before run ledger resolved ih =>
      have told := told_of_story settings past p before
      obtain ⟨rfl, -⟩ | ⟨o, member, k, inside, -, roomy, now, answered⟩ :=
        answered_of_resolved settings past p q address told resolved
      · exact ih templates knows
      · obtain ⟨pass, brought⟩ := comes_answered settings past templates p q told knows o now _ roomy
          (o.shape.chunk_of_offset_lt k inside) answered
        exact ((ih templates knows).trans pass).tail brought
  | stored past p o offset b before member present ih =>
      have ledger := (told_of_story settings past p before).ledger
      have account : ({ p with objects := revised p.objects (o.withByte offset b) } : Pager).account = p.account := by
        have saved := saved_revised p o (o.withByte offset b) ledger.ids member ⟨rfl, rfl, rfl, rfl, rfl⟩ fun _ _ => rfl
        simp only [Pager.account, saved, revised_ids]
        rfl
      rw [account]
      exact ih templates knows

end Pager

end DemandPaging
