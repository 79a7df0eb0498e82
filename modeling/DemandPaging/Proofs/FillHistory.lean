import DemandPaging.Proofs.RoomToSpare
import DemandPaging.Proofs.SavedCopies

set_option autoImplicit false

namespace DemandPaging

-- Of the entries that switch something on or off, the latest switched it on.
def latest (on off : Event → Bool) : List Event → Bool
  | [] => false
  | e :: older => on e || (!off e && latest on off older)

section

variable (on off : Event → Bool)

theorem latest_iff (journal : List Event) : latest on off journal = true ↔
    ∃ newer e older, journal = newer ++ e :: older ∧ on e = true ∧ ∀ x ∈ newer, off x = false := by
  induction journal with
  | nil => simp [latest]
  | cons e older ih =>
      rw [latest, Bool.or_eq_true, Bool.and_eq_true, Bool.not_eq_true', ih]
      constructor
      · rintro (now | ⟨stays, newer, x, rest, rfl, before, quiet⟩)
        · exact ⟨[], e, older, rfl, now, fun x impossible => by cases impossible⟩
        · exact ⟨e :: newer, x, rest, rfl, before, List.forall_mem_cons.mpr ⟨stays, quiet⟩⟩
      · rintro ⟨newer, x, rest, same, before, quiet⟩
        cases newer with
        | nil =>
            cases same
            exact Or.inl before
        | cons y newer =>
            cases same
            obtain ⟨stays, quiet⟩ := List.forall_mem_cons.mp quiet
            exact Or.inr ⟨stays, newer, x, rest, rfl, before, quiet⟩

theorem off_of_latest (mid older : List Event) (e : Event) (before : on e = true)
    (gone : latest on off (mid ++ e :: older) = false) : ∃ x ∈ mid, off x = true := by
  by_contra none
  have quiet : ∀ x ∈ mid, off x = false := fun x member => Bool.eq_false_iff.mpr fun switched => none ⟨x, member, switched⟩
  rw [(latest_iff on off _).mpr ⟨mid, e, older, rfl, before, quiet⟩] at gone
  cases gone

theorem never_of_unnamed (journal : List Event) (never : ∀ e ∈ journal, on e = false) : latest on off journal = false := by
  induction journal with
  | nil => rfl
  | cons e older ih =>
      obtain ⟨now, before⟩ := List.forall_mem_cons.mp never
      rw [latest, now, ih before, Bool.and_false, Bool.or_false]

end

namespace Event

def brings (key : ChunkKey) : Event → Bool
  | .filling _ => false
  | .restored _ _ => false
  | .installed id i => (id, i) = key
  | .reclaimed _ _ _ => false
  | .reset _ => false

def takes (key : ChunkKey) : Event → Bool
  | .filling _ => false
  | .restored _ _ => false
  | .installed _ _ => false
  | .reclaimed id i _ => (id, i) = key
  | .reset id => id = key.1

def writes (key : ChunkKey) : Event → Bool
  | .filling _ => false
  | .restored _ _ => false
  | .installed _ _ => false
  | .reclaimed id i saved => saved && (id, i) = key
  | .reset _ => false

def resets (key : ChunkKey) : Event → Bool
  | .filling _ => false
  | .restored _ _ => false
  | .installed _ _ => false
  | .reclaimed _ _ _ => false
  | .reset id => id = key.1

theorem brings_iff (key : ChunkKey) (e : Event) : e.brings key = true ↔ e = .installed key.1 key.2 := by
  cases e with
  | installed id i =>
      simp only [brings, decide_eq_true_eq, installed.injEq]
      exact Prod.ext_iff
  | _ => constructor <;> intro impossible <;> cases impossible

theorem takes_iff (key : ChunkKey) (e : Event) :
    e.takes key = true ↔ e = .reset key.1 ∨ ∃ saved, e = .reclaimed key.1 key.2 saved := by
  cases e with
  | reclaimed id i saved =>
      simp only [takes, decide_eq_true_eq, reclaimed.injEq]
      constructor
      · rintro rfl
        exact Or.inr ⟨saved, rfl, rfl, rfl⟩
      · rintro (impossible | ⟨_, rfl, rfl, -⟩)
        · cases impossible
        · rfl
  | reset id =>
      simp only [takes, decide_eq_true_eq, reset.injEq]
      refine ⟨Or.inl, fun given => given.resolve_right ?_⟩
      rintro ⟨_, impossible⟩
      cases impossible
  | _ =>
      constructor
      · intro impossible
        cases impossible
      · rintro (impossible | ⟨_, impossible⟩) <;> cases impossible

theorem writes_iff (key : ChunkKey) (e : Event) : e.writes key = true ↔ e = .reclaimed key.1 key.2 true := by
  cases e with
  | reclaimed id i saved =>
      simp only [writes, Bool.and_eq_true, decide_eq_true_eq, reclaimed.injEq]
      constructor
      · rintro ⟨rfl, rfl⟩
        exact ⟨rfl, rfl, rfl⟩
      · rintro ⟨rfl, rfl, rfl⟩
        exact ⟨rfl, rfl⟩
  | _ => constructor <;> intro impossible <;> cases impossible

theorem resets_iff (key : ChunkKey) (e : Event) : e.resets key = true ↔ e = .reset key.1 := by
  cases e with
  | reset id => simp only [resets, decide_eq_true_eq, reset.injEq]
  | _ => constructor <;> intro impossible <;> cases impossible

end Event

theorem Account.mem_without_iff (a : Account) (id : ObjectId) (key : ChunkKey) :
    (key ∈ (a.without id).resident ↔ key ∈ a.resident ∧ key.1 ≠ id) ∧
    (key ∈ (a.without id).saved ↔ key ∈ a.saved ∧ key.1 ≠ id) := by
  refine ⟨?_, Iff.rfl⟩
  rw [without, List.mem_filter, decide_eq_true_iff]

def standing (key : ChunkKey) : List Event → Bool := latest (Event.brings key) (Event.takes key)

def written (key : ChunkKey) : List Event → Bool := latest (Event.writes key) (Event.resets key)

-- The chunk was written back, and its object not reset since.
def WrittenBack (key : ChunkKey) (journal : List Event) : Prop :=
  ∃ newer older, journal = newer ++ .reclaimed key.1 key.2 true :: older ∧ .reset key.1 ∉ newer

-- The chunk came in, and was neither given back nor reset since.
def Stays (key : ChunkKey) (journal : List Event) : Prop :=
  ∃ newer older, journal = newer ++ .installed key.1 key.2 :: older ∧ .reset key.1 ∉ newer ∧
    ∀ saved, .reclaimed key.1 key.2 saved ∉ newer

theorem written_iff (key : ChunkKey) (journal : List Event) : written key journal = true ↔ WrittenBack key journal := by
  rw [written, latest_iff]
  constructor
  · rintro ⟨newer, e, older, same, writes, quiet⟩
    rw [Event.writes_iff] at writes
    subst writes
    refine ⟨newer, older, same, fun member => ?_⟩
    have stays := quiet _ member
    rw [(Event.resets_iff key _).mpr rfl] at stays
    cases stays
  · rintro ⟨newer, older, same, unreset⟩
    refine ⟨newer, _, older, same, (Event.writes_iff key _).mpr rfl, fun x member => Bool.eq_false_iff.mpr fun resets => ?_⟩
    exact unreset ((Event.resets_iff key x).mp resets ▸ member)

theorem standing_iff (key : ChunkKey) (journal : List Event) : standing key journal = true ↔ Stays key journal := by
  rw [standing, latest_iff]
  constructor
  · rintro ⟨newer, e, older, same, brings, quiet⟩
    rw [Event.brings_iff] at brings
    subst brings
    refine ⟨newer, older, same, fun member => ?_, fun saved member => ?_⟩
    all_goals
      have stays := quiet _ member
      rw [(Event.takes_iff key _).mpr (by simp)] at stays
      cases stays
  · rintro ⟨newer, older, same, unreset, kept⟩
    refine ⟨newer, _, older, same, (Event.brings_iff key _).mpr rfl, fun x member => Bool.eq_false_iff.mpr fun takes => ?_⟩
    rcases (Event.takes_iff key x).mp takes with rfl | ⟨saved, rfl⟩
    · exact unreset member
    · exact kept saved member

variable [Platform]

namespace Event

def asks (templates : ObjectId → Option Template) (key : ChunkKey) : Event → Bool
  | .filling call => call.chunk? templates = some key
  | .restored _ _ => false
  | .installed _ _ => false
  | .reclaimed _ _ _ => false
  | .reset _ => false

end Event

-- After these entries a filler was asked for the chunk and the chunk not taken since; it is resident; it has a saved copy.
def asked (templates : ObjectId → Option Template) (key : ChunkKey) : List Event → Bool :=
  latest (Event.asks templates key) (Event.takes key)

-- Whether an entry may follow the older ones. A filler is asked for what has no copy, and again for the same chunk only while
-- the chunk is resident; a copy is taken only if there is one; only what is not resident comes in; and only what can change
-- is written back.
def Event.Follows (templates : ObjectId → Option Template) (older : List Event) : Event → Prop
  | .filling call => ∃ t i, templates call.id = some t ∧ i < t.shape.chunks ∧ call = t.call call.id i ∧
      written (call.id, i) older = false ∧ (asked templates (call.id, i) older = true → standing (call.id, i) older = true)
  | .restored id i => (∃ t, templates id = some t ∧ t.readOnly = false) ∧ written (id, i) older = true
  | .installed id i => standing (id, i) older = false
  | .reclaimed id i saved => standing (id, i) older = true ∧
      (saved = true → ∃ t, templates id = some t ∧ t.readOnly = false)
  | .reset _ => True

def LawfulJournal (templates : ObjectId → Option Template) : List Event → Prop
  | [] => True
  | e :: older => e.Follows templates older ∧ LawfulJournal templates older

theorem follows_of_lawful (templates : ObjectId → Option Template) (newer older : List Event) (e : Event)
    (lawful : LawfulJournal templates (newer ++ e :: older)) : e.Follows templates older := by
  induction newer with
  | nil => exact lawful.1
  | cons _ newer ih => exact ih lawful.2

namespace Account

structure Lawful (templates : ObjectId → Option Template) (a : Account) : Prop where
  journal : LawfulJournal templates a.journal
  owned : ∀ key ∈ a.resident, key.1 ∈ a.objects
  kept : ∀ key ∈ a.saved, key.1 ∈ a.objects
  resident : ∀ key, key.1 ∈ a.objects → (key ∈ a.resident ↔ standing key a.journal = true)
  saved : ∀ key, key.1 ∈ a.objects → (key ∈ a.saved ↔ written key a.journal = true)
  asked : ∀ key, asked templates key a.journal = true → standing key a.journal = true

theorem lawful_empty (templates : ObjectId → Option Template) : Lawful templates empty := by
  constructor <;> simp [empty, LawfulJournal, DemandPaging.asked, latest]

theorem asked_taken (templates : ObjectId → Option Template) (key : ChunkKey) (e : Event) (journal : List Event)
    (quiet : ∀ key, e.asks templates key = false) (brings : e.brings key = false)
    (before : asked templates key journal = true → standing key journal = true) :
    asked templates key (e :: journal) = true → standing key (e :: journal) = true := by
  rw [asked, standing, latest, latest, quiet, brings, Bool.false_or, Bool.false_or, Bool.and_eq_true, Bool.and_eq_true]
  exact fun given => ⟨given.1, before given.2⟩

section

variable (templates : ObjectId → Option Template) (a b : Account) (lawful : Lawful templates a)

include lawful

theorem lawful_appeared (id : ObjectId) (fresh : ∀ e ∈ a.journal, e.object ≠ id) :
    Lawful templates { a with objects := insert id a.objects } := by
  have unnamed : ∀ on off : Event → Bool, (∀ e, on e = true → e.object = id) → latest on off a.journal = false :=
    fun on off names => never_of_unnamed on off a.journal fun e member =>
      Bool.eq_false_iff.mpr fun switched => fresh e member (names e switched)
  refine ⟨lawful.journal, fun key member => Or.inr (lawful.owned key member), fun key member => Or.inr (lawful.kept key member),
    fun key there => ?_, fun key there => ?_, lawful.asked⟩
  · by_cases old : key.1 ∈ a.objects
    · exact lawful.resident key old
    · have own : key.1 = id := there.resolve_right old
      have none : standing key a.journal = false := unnamed _ _ fun e brings => by
        cases e with
        | installed id' i =>
            simp only [Event.brings, decide_eq_true_eq] at brings
            exact (congrArg Prod.fst brings).trans own
        | _ => cases brings
      exact iff_of_false (fun member => old (lawful.owned key member)) (by rw [none]; exact Bool.false_ne_true)
  · by_cases old : key.1 ∈ a.objects
    · exact lawful.saved key old
    · have own : key.1 = id := there.resolve_right old
      have none : written key a.journal = false := unnamed _ _ fun e writes => by
        cases e with
        | reclaimed id' i saved =>
            simp only [Event.writes, Bool.and_eq_true, decide_eq_true_eq] at writes
            exact (congrArg Prod.fst writes.2).trans own
        | _ => cases writes
      exact iff_of_false (fun member => old (lawful.kept key member)) (by rw [none]; exact Bool.false_ne_true)

theorem lawful_vanished (id : ObjectId) : Lawful templates { a.without id with objects := a.objects \ {id} } := by
  have members := mem_without_iff a id
  refine ⟨lawful.journal, fun key member => ?_, fun key member => ?_, fun key there => ?_, fun key there => ?_, lawful.asked⟩
  · obtain ⟨old, apart⟩ := (members key).1.mp member
    exact ⟨lawful.owned key old, apart⟩
  · obtain ⟨old, apart⟩ := (members key).2.mp member
    exact ⟨lawful.kept key old, apart⟩
  · exact ((members key).1.trans (and_iff_left there.2)).trans (lawful.resident key there.1)
  · exact ((members key).2.trans (and_iff_left there.2)).trans (lawful.saved key there.1)

theorem lawful_emptied (id : ObjectId) : Lawful templates { a.without id with journal := .reset id :: a.journal } := by
  have members := mem_without_iff a id
  refine ⟨⟨trivial, lawful.journal⟩, fun key member => lawful.owned key ((members key).1.mp member).1,
    fun key member => lawful.kept key ((members key).2.mp member).1, fun key there => ?_, fun key there => ?_, fun key => ?_⟩
  · refine (members key).1.trans ?_
    rw [lawful.resident key there]
    show _ ↔ (false || (!decide (id = key.1) && standing key a.journal)) = true
    rw [Bool.false_or, Bool.and_eq_true, Bool.not_eq_true', decide_eq_false_iff_not, and_comm, ne_comm]
  · refine (members key).2.trans ?_
    rw [lawful.saved key there]
    show _ ↔ (false || (!decide (id = key.1) && written key a.journal)) = true
    rw [Bool.false_or, Bool.and_eq_true, Bool.not_eq_true', decide_eq_false_iff_not, and_comm, ne_comm]
  · exact asked_taken templates key (.reset id) a.journal (fun _ => rfl) rfl (lawful.asked key)

theorem follows_supplies (id : ObjectId) (i : Nat) (e : Event) (there : id ∈ a.objects) (supplies : Supplies templates a id i e) :
    e.Follows templates a.journal ∧ (∀ key, standing key (e :: a.journal) = standing key a.journal) ∧
      (∀ key, written key (e :: a.journal) = written key a.journal) ∧
      ∀ key, asked templates key (e :: a.journal) = true → key = (id, i) ∨ asked templates key a.journal = true := by
  cases supplies with
  | called t known inside unsaved =>
      have chunk := chunk_of_call templates t id i known inside
      refine ⟨⟨t, i, known, inside, rfl, ?_, lawful.asked (id, i)⟩, fun _ => rfl, fun _ => rfl, fun key given => ?_⟩
      · exact Bool.eq_false_iff.mpr fun saved => unsaved ((lawful.saved (id, i) there).mpr saved)
      · rw [DemandPaging.asked, latest, Bool.or_eq_true, Event.asks, chunk, decide_eq_true_iff] at given
        exact given.imp_left fun same => (Option.some.inj same).symm
  | restored t known writable saved =>
      exact ⟨⟨⟨t, known, writable⟩, (lawful.saved (id, i) there).mp saved⟩, fun _ => rfl, fun _ => rfl, fun _ => Or.inr⟩

theorem lawful_dropped (id : ObjectId) (i : Nat) (e : Event) (there : id ∈ a.objects) (present : (id, i) ∈ a.resident)
    (supplies : Supplies templates a id i e) : Lawful templates { a with journal := e :: a.journal } := by
  obtain ⟨follows, stands, writes, asks⟩ := follows_supplies templates a lawful id i e there supplies
  refine ⟨⟨follows, lawful.journal⟩, lawful.owned, lawful.kept, fun key known => ?_, fun key known => ?_, fun key given => ?_⟩
  · rw [stands]
    exact lawful.resident key known
  · rw [writes]
    exact lawful.saved key known
  · rw [stands]
    rcases asks key given with rfl | before
    · exact (lawful.resident (id, i) there).mp present
    · exact lawful.asked key before

theorem lawful_brought (id : ObjectId) (i : Nat) (e : Event) (there : id ∈ a.objects) (absent : (id, i) ∉ a.resident)
    (supplies : Supplies templates a id i e) :
    Lawful templates
      { a with resident := a.resident ++ [(id, i)], journal := .installed id i :: e :: a.journal } := by
  obtain ⟨follows, stands, writes, asks⟩ := follows_supplies templates a lawful id i e there supplies
  have gone : standing (id, i) (e :: a.journal) = false := by
    rw [stands]
    exact Bool.eq_false_iff.mpr fun stood => absent ((lawful.resident (id, i) there).mpr stood)
  have now : ∀ key, standing key (.installed id i :: e :: a.journal) = (decide ((id, i) = key) || standing key a.journal) := by
    intro key
    rw [← stands]
    rfl
  refine ⟨⟨gone, follows, lawful.journal⟩, fun key member => ?_, lawful.kept, fun key known => ?_, fun key known => ?_,
    fun key given => ?_⟩
  · rcases List.mem_append.mp member with old | new
    · exact lawful.owned key old
    · rw [List.mem_singleton.mp new]
      exact there
  · rw [now, Bool.or_eq_true, decide_eq_true_iff, List.mem_append, List.mem_singleton, lawful.resident key known, or_comm,
      eq_comm]
  · exact (lawful.saved key known).trans (by rw [← writes]; rfl)
  · rw [now, Bool.or_eq_true, decide_eq_true_iff]
    rcases asks key given with same | before
    · exact Or.inl same.symm
    · exact Or.inr (lawful.asked key before)

theorem lawful_reclaimed (id : ObjectId) (i : Nat) (rest : List ChunkKey) (saved : Bool) (there : id ∈ a.objects)
    (writable : saved = true → ∃ t, templates id = some t ∧ t.readOnly = false) (front : a.resident = (id, i) :: rest)
    (once : (id, i) ∉ rest) :
    Lawful templates
      { a with
        resident := rest
        saved := if saved then insert (id, i) a.saved else a.saved
        journal := .reclaimed id i saved :: a.journal } := by
  have members : ∀ key, key ∈ rest ↔ key ∈ a.resident ∧ key ≠ (id, i) := by
    intro key
    rw [front, List.mem_cons]
    constructor
    · exact fun member => ⟨Or.inr member, fun same => once (same ▸ member)⟩
    · exact fun given => given.1.resolve_left given.2
  have stood := (lawful.resident (id, i) there).mp (front ▸ List.mem_cons_self)
  refine ⟨⟨⟨stood, writable⟩, lawful.journal⟩, fun key member => lawful.owned key ((members key).mp member).1,
    fun key member => ?_, fun key known => ?_, fun key known => ?_, fun key => ?_⟩
  · cases saved with
    | false => exact lawful.kept key member
    | true =>
        rcases member with rfl | old
        · exact there
        · exact lawful.kept key old
  · rw [members, lawful.resident key known]
    show _ ↔ (false || (!decide ((id, i) = key) && standing key a.journal)) = true
    rw [Bool.false_or, Bool.and_eq_true, Bool.not_eq_true', decide_eq_false_iff_not, and_comm, ne_comm]
  · show key ∈ (if saved then insert (id, i) a.saved else a.saved) ↔
      ((saved && decide ((id, i) = key)) || (!false && written key a.journal)) = true
    rw [Bool.not_false, Bool.true_and, Bool.or_eq_true, ← lawful.saved key known]
    cases saved with
    | false => simp
    | true => simp [Set.mem_insert_iff, eq_comm]
  · exact asked_taken templates key (.reclaimed id i saved) a.journal (fun _ => rfl) rfl (lawful.asked key)

theorem lawful_happens (happens : Happens templates a b) : Lawful templates b := by
  cases happens with
  | appeared id t known fresh => exact lawful_appeared templates a lawful id fresh
  | vanished id => exact lawful_vanished templates a lawful id
  | emptied id there => exact lawful_emptied templates a lawful id
  | dropped id i e there present supplies => exact lawful_dropped templates a lawful id i e there present supplies
  | brought id i e there absent supplies => exact lawful_brought templates a lawful id i e there absent supplies
  | reclaimed id i rest saved t there known writable front once =>
      exact lawful_reclaimed templates a lawful id i rest saved there (fun given => ⟨t, known, writable given⟩) front once

theorem lawful_comes (comes : Comes templates a b) : Lawful templates b := by
  induction comes with
  | refl => exact lawful
  | tail _ last ih => exact lawful_happens templates _ _ ih last

end

end Account

-- A call for a run of elements: a whole chunk, or the last one cut off at the end, and the bytes of just these elements.
structure FillCall.Whole (call : FillCall) (t : Template) : Prop where
  aligned : t.shape.perChunk ∣ call.start
  some : call.start < call.stop
  within : call.stop ≤ t.shape.elementCount
  whole : call.stop - call.start = t.shape.perChunk ∨
    (call.stop = t.shape.elementCount ∧ call.stop - call.start < t.shape.perChunk)
  stride : call.stride = t.shape.stride
  len : call.len = (call.stop - call.start) * t.shape.stride

theorem call_whole (t : Template) (id : ObjectId) (i : Nat) (inside : i < t.shape.chunks) : (t.call id i).Whole t := by
  have start : (t.call id i).start = i * t.shape.perChunk := t.shape.piece_start i inside
  have stop : (t.call id i).stop = min ((i + 1) * t.shape.perChunk) t.shape.elementCount := t.shape.piece_stop i inside
  have begins := t.shape.chunk_starts i inside
  have positive := t.shape.perChunk_pos
  rw [Nat.succ_mul] at stop
  exact ⟨start ▸ Nat.dvd_mul_left _ _, by omega, by omega, by omega, rfl, rfl⟩

-- What the journal of a run says about calls to fillers. Two calls for one chunk have a reset of the object or a giving back of
-- the chunk between them, unless the later one is for a chunk that is there, and then nothing comes in; a chunk comes in again
-- only after a reset or a giving back; a call after the chunk was written back has a reset between; and no chunk of a
-- read-only object is written back or restored.
structure FillLaw (templates : ObjectId → Option Template) (journal : List Event) : Prop where
  calls : ∀ call, .filling call ∈ journal → ∃ t, templates call.id = some t ∧ call.Whole t
  apart : ∀ (newer mid older : List Event) (later earlier : FillCall) (key : ChunkKey),
    journal = newer ++ .filling later :: (mid ++ .filling earlier :: older) →
    later.chunk? templates = some key → earlier.chunk? templates = some key →
    .reset key.1 ∈ mid ∨ (∃ saved, .reclaimed key.1 key.2 saved ∈ mid) ∨ Stays key (mid ++ .filling earlier :: older)
  idle : ∀ (newer older : List Event) (call : FillCall) (key : ChunkKey), Stays key older →
    journal ≠ newer ++ .installed key.1 key.2 :: .filling call :: older
  renewed : ∀ (newer mid older : List Event) (key : ChunkKey),
    journal = newer ++ .installed key.1 key.2 :: (mid ++ .installed key.1 key.2 :: older) →
    .reset key.1 ∈ mid ∨ ∃ saved, .reclaimed key.1 key.2 saved ∈ mid
  saved : ∀ (newer mid older : List Event) (call : FillCall) (key : ChunkKey),
    journal = newer ++ .filling call :: (mid ++ .reclaimed key.1 key.2 true :: older) →
    call.chunk? templates = some key → .reset key.1 ∈ mid
  readOnly : ∀ e ∈ journal, ∀ t, templates e.object = some t → t.readOnly = true →
    ∀ id i, e ≠ .restored id i ∧ e ≠ .reclaimed id i true

section

variable (templates : ObjectId → Option Template) (journal : List Event) (lawful : LawfulJournal templates journal)

include lawful

theorem follows_call (newer older : List Event) (call : FillCall) (key : ChunkKey)
    (same : journal = newer ++ .filling call :: older) (chunk : call.chunk? templates = some key) :
    written key older = false ∧ (asked templates key older = true → standing key older = true) := by
  obtain ⟨t, i, known, inside, shape, unsaved, stays⟩ := follows_of_lawful templates newer older _ (same ▸ lawful)
  have own := chunk_of_call templates t call.id i known inside
  rw [← shape, chunk] at own
  cases own
  exact ⟨unsaved, stays⟩

theorem apart_of_lawful (newer mid older : List Event) (later earlier : FillCall) (key : ChunkKey)
    (same : journal = newer ++ .filling later :: (mid ++ .filling earlier :: older))
    (laterChunk : later.chunk? templates = some key) (earlierChunk : earlier.chunk? templates = some key) :
    .reset key.1 ∈ mid ∨ (∃ saved, .reclaimed key.1 key.2 saved ∈ mid) ∨ Stays key (mid ++ .filling earlier :: older) := by
  have stays := (follows_call templates journal lawful newer _ later key same laterChunk).2
  cases again : asked templates key (mid ++ .filling earlier :: older) with
  | true => exact Or.inr (Or.inr ((standing_iff key _).mp (stays again)))
  | false =>
      obtain ⟨x, inMid, takes⟩ := off_of_latest _ _ mid older (.filling earlier) (decide_eq_true earlierChunk) again
      rcases (Event.takes_iff key x).mp takes with rfl | ⟨saved, rfl⟩
      · exact Or.inl inMid
      · exact Or.inr (Or.inl ⟨saved, inMid⟩)

theorem law_of_lawful : FillLaw templates journal := by
  have follows : ∀ newer e older, journal = newer ++ e :: older → e.Follows templates older := fun newer e older same =>
    follows_of_lawful templates newer older e (same ▸ lawful)
  refine ⟨fun call member => ?_, apart_of_lawful templates journal lawful, fun newer older call key stays same => ?_,
    fun newer mid older key same => ?_, fun newer mid older call key same chunk => ?_, fun e member t known fixed id i => ?_⟩
  · obtain ⟨newer, older, same⟩ := List.append_of_mem member
    obtain ⟨t, i, known, inside, shape, -⟩ := follows newer _ older same
    exact ⟨t, known, shape ▸ call_whole t call.id i inside⟩
  · have gone : standing key (.filling call :: older) = false := follows newer _ _ same
    have stood : standing key (.filling call :: older) = true := (standing_iff key older).mpr stays
    rw [gone] at stood
    cases stood
  · have gone : standing key (mid ++ .installed key.1 key.2 :: older) = false := follows newer _ _ same
    obtain ⟨x, inMid, takes⟩ := off_of_latest _ _ mid older _ ((Event.brings_iff key _).mpr rfl) gone
    rcases (Event.takes_iff key x).mp takes with rfl | ⟨saved, rfl⟩
    · exact Or.inl inMid
    · exact Or.inr ⟨saved, inMid⟩
  · obtain ⟨x, inMid, resets⟩ := off_of_latest _ _ mid older _ ((Event.writes_iff key _).mpr rfl)
      (follows_call templates journal lawful newer _ call key same chunk).1
    exact (Event.resets_iff key x).mp resets ▸ inMid
  · obtain ⟨newer, older, same⟩ := List.append_of_mem member
    have fits := follows newer e older same
    constructor
    · rintro rfl
      obtain ⟨⟨u, named, writable⟩, -⟩ := fits
      cases named.symm.trans known
      rw [fixed] at writable
      cases writable
    · rintro rfl
      obtain ⟨u, named, writable⟩ := fits.2 rfl
      cases named.symm.trans known
      rw [fixed] at writable
      cases writable

end

def Event.isCall : Event → Bool
  | .filling _ => true
  | .restored _ _ => false
  | .installed _ _ => false
  | .reclaimed _ _ _ => false
  | .reset _ => false

structure CallsOnce (p q : Pager) (last given : List Event) : Prop where
  journal : q.journal = last ++ (given ++ p.journal)
  once : last.countP Event.isCall ≤ 1
  given : ∀ e ∈ given, ∃ id i saved, e = .reclaimed id i saved
  whole : ∀ call, .filling call ∈ last → ∃ o ∈ p.objects, call.id = o.id ∧ call.Whole o.template

namespace Pager

theorem reclaims_given (p : Pager) (taken : List Residency) (e : Event) (member : e ∈ (p.reclaims taken).reverse) :
    ∃ id i saved, e = .reclaimed id i saved := by
  obtain ⟨r, -, rfl⟩ := List.mem_map.mp (List.mem_reverse.mp member)
  exact ⟨_, _, _, rfl⟩

theorem calls_once_of_resolved (p q : Pager) (address : Nat) (ledger : Ledger p) (storeless : p.Storeless)
    (resolved : Resolved p address q) : ∃ last given, CallsOnce p q last given := by
  cases resolved with
  | header o member low high =>
      refine ⟨[], [], rfl, Nat.zero_le _, List.forall_mem_nil _, fun call impossible => ?_⟩
      cases impossible
  | body o now k calls bytes roomy supplied q member place inside room becomes nowMember sourced there installed =>
      obtain ⟨taken, passed⟩ := passed_of_room p.noticed roomy _ (ledger_noticed p ledger) storeless room
      have journal : roomy.journal = (p.reclaims taken).reverse ++ p.journal := passed.journal
      obtain ⟨e, entry, source⟩ := entry_of_sourced roomy supplied o now _ bytes becomes sourced
      have whole : ∀ call, e = .filling call → ∃ x ∈ p.objects, call.id = x.id ∧ call.Whole x.template := by
        rintro call rfl
        rcases source with ⟨-, same⟩ | ⟨s, -, -, impossible, -⟩
        · cases same
          exact ⟨o, member, rfl, call_whole o.template o.id _ (o.shape.chunk_of_offset_lt k inside)⟩
        · cases impossible
      have one : [e].countP Event.isCall ≤ 1 := List.countP_le_length
      cases installed with
      | present queue wf records resident =>
          refine ⟨[e], (p.reclaims taken).reverse, entry.trans (congrArg _ journal), one, reclaims_given p taken,
            fun call listed => whole call (List.mem_singleton.mp listed).symm⟩
      | fresh queue wf records absent =>
          refine ⟨[.installed now.id (k / o.shape.chunkLen), e], (p.reclaims taken).reverse, ?_, one, reclaims_given p taken,
            fun call listed => ?_⟩
          · exact congrArg _ (entry.trans (congrArg _ journal))
          · rcases List.mem_cons.mp listed with impossible | last
            · cases impossible
            · exact whole call (List.mem_singleton.mp last).symm

theorem lawful_of_story (settings : Settings) (past : List Deed) (p : Pager) (story : Story settings past p)
    (templates : ObjectId → Option Template) (knows : ∀ id t, template? past id = some t → templates id = some t) :
    Account.Lawful templates p.account :=
  Account.lawful_comes templates _ _ (Account.lawful_empty templates) (comes_of_story settings past p story templates knows)

-- How a fault gets the bytes of chunk `i` of an object: by a call, unless the chunk was written back and the object not reset
-- since; else from the copy, and then the object can change and the bytes are those that were written back last.
inductive Supplies (past : List Deed) (roomy q : Pager) (o : Managed) (i : Nat) : Event → Prop where
  | filled (unsaved : ¬ WrittenBack (o.id, i) roomy.journal) :
      Supplies past roomy q o i (.filling (o.template.call o.id i))
  | restored (copy : Bytes) (writable : o.template.readOnly = false) (saved : WrittenBack (o.id, i) roomy.journal)
      (same : copy? o.id i past = some copy)
      (comes : ¬ roomy.Resident o.id i → ∃ later ∈ q.objects, later.id = o.id ∧ later.contents i = copy) :
      Supplies past roomy q o i (.restored o.id i)

structure Fills (past : List Deed) (p q : Pager) (o : Managed) (i : Nat) (taken : List Residency) (roomy : Pager) (e : Event) :
    Prop where
  passed : Passed p.noticed taken roomy
  supplies : Supplies past roomy q o i e
  missing : ¬ p.Resident o.id i → ¬ roomy.Resident o.id i
  comes : ¬ roomy.Resident o.id i → q.journal = .installed o.id i :: e :: roomy.journal
  dropped : roomy.Resident o.id i → Dropped roomy q e

section

variable (settings : Settings) (past : List Deed) (host : Host) (p q roomy : Pager) (address : Nat) (o now : Managed) (i : Nat)
  (story : Story settings past p) (inside : i < o.shape.chunks) (answered : Answered settings past p o i q roomy now)

include story inside answered

theorem saved_iff_written : now.isSaved i = true ↔ WrittenBack (o.id, i) roomy.journal := by
  have told := told_of_story settings past p story
  have lawful := Account.lawful_comes (template? past) _ _
    (lawful_of_story settings past p story (template? past) fun _ _ => id)
    (comes_answered settings past (template? past) p q told (fun _ _ => id) o now i roomy inside answered).1
  have chunk : i < now.shape.chunks := o.becomes_shape now answered.becomes ▸ inside
  have listed : now.id ∈ roomy.account.objects := List.mem_map_of_mem answered.member
  calc
    now.isSaved i = true ↔ (now.id, i) ∈ roomy.account.saved :=
      ((mem_saved_iff roomy now answered.told.ledger.ids answered.member i).trans (and_iff_right chunk)).symm
    _ ↔ written (now.id, i) roomy.journal = true := lawful.saved (now.id, i) listed
    _ ↔ WrittenBack (o.id, i) roomy.journal := answered.becomes.id ▸ written_iff (now.id, i) roomy.journal

theorem supplies_answered (run : (resolve host address).run p = .ok () q) (e : Event) (entered : Entered roomy q o now i e) :
    Supplies (.faulted host p address :: past) roomy q o i e := by
  have written := saved_iff_written settings past p q roomy o now i story inside answered
  obtain ⟨unsaved, rfl⟩ | ⟨s, store, saved, rfl, comes⟩ := entered.source
  · exact .filled fun back => Bool.false_ne_true (unsaved.symm.trans (written.mpr back))
  · have isSaved : now.isSaved i = true := by
      rw [Managed.isSaved, store]
      exact saved
    have writable : o.template.readOnly = false := by
      refine Bool.eq_false_iff.mpr fun fixed => ?_
      rw [answered.told.storeless now answered.member (answered.becomes.template ▸ fixed)] at store
      cases store
    have copied := (copied_answered settings past host p q address (told_of_story settings past p story) o now i roomy inside
      (copied_of_story settings past p story) run answered).1
    have copy := copied now answered.member s store i (o.becomes_shape now answered.becomes ▸ inside) saved
    rw [answered.becomes.id] at copy
    exact .restored _ writable (written.mp isSaved) copy comes

end

theorem fills_of_resolved (settings : Settings) (past : List Deed) (host : Host) (p q : Pager) (address : Nat)
    (story : Story settings past p) (run : (resolve host address).run p = .ok () q) (resolved : Resolved p address q) :
    (q = p.noticed ∧ ∃ o ∈ p.objects, o.mapping.base ≤ address ∧ address - o.mapping.base < o.shape.headerPadded) ∨
    ∃ o ∈ p.objects, ∃ k, k < o.shape.bodyReserved ∧ address = o.mapping.base + (o.shape.headerPadded + k) ∧
      ∃ taken roomy e, Fills (.faulted host p address :: past) p q o (k / o.shape.chunkLen) taken roomy e := by
  have told := told_of_story settings past p story
  obtain header | ⟨o, member, k, inside, place, roomy, now, answered⟩ :=
    answered_of_resolved settings past p q address told resolved
  · exact .inl header
  · have chunk := o.shape.chunk_of_offset_lt k inside
    have noticed := noticed_told settings past p told
    obtain ⟨taken, passed⟩ := passed_of_room p.noticed roomy _ noticed.ledger noticed.storeless answered.room
    obtain ⟨e, entered⟩ := entered_answered settings past p q roomy o now _ chunk answered
    refine .inr ⟨o, member, k, inside, place, taken, roomy, e, passed, ?_, fun absent resident => absent ?_,
      entered.installed, entered.dropped⟩
    · exact supplies_answered settings past host p q roomy address o now _ story chunk answered run e entered
    · exact turns_fewer p.noticed roomy noticed.ledger (turns_of_room p.noticed roomy _ answered.room) o.id _ resident

end Pager

namespace Worker

open Pager

section

variable (settings : Settings) (past : List Deed) (w : Worker)

theorem law_of_lived (lived : Lived settings past w) (fine : ∀ failure, w.ending? ≠ some (.error failure)) :
    FillLaw (template? past) w.pager.journal := by
  cases stands_of_lived settings past w lived with
  | serving serving story =>
      exact law_of_lawful _ _ (lawful_of_story settings past w.pager story (template? past) fun _ _ => id).journal
  | ended outcome ending objects watched ended =>
      generalize w.pager.journal = journal at ended
      cases ended with
      | waiting past p cause story => exact absurd ending (fine _)
      | request past p request outcome story fresh spared =>
          exact law_of_lawful _ _ (lawful_of_story settings past p story (template? (.served request :: past))
            fun id t known => template_served past request id t fresh known).journal
      | fault host releases past p q address halt story stops => exact absurd ending (fine _)

end

-- Two calls for one chunk have a reset of the object or a giving back of the chunk between them, unless the later one
-- answers a fault at a chunk that is there: then its bytes are dropped.
theorem fills_of_runs (settings : Settings) :
    (∀ w, Reachable settings w → ∀ host address, (w.fault host address).Serving →
      ∃ last given, CallsOnce w.pager (w.fault host address).pager last given) ∧
    ∀ past w, Lived settings past w → (∀ failure, w.ending? ≠ some (.error failure)) →
      FillLaw (template? past) w.pager.journal ∧
      ∀ host address page, page = address / Page.size * Page.size → (w.fault host address).Serving →
        ((w.fault host address).pager = w.pager.noticed ∧
          ∃ o ∈ w.pager.objects, o.mapping.base ≤ page ∧ page - o.mapping.base < o.shape.headerPadded) ∨
        ∃ o ∈ w.pager.objects, ∃ k, k < o.shape.bodyReserved ∧ page = o.mapping.base + (o.shape.headerPadded + k) ∧
          ∃ taken roomy e, Fills (.faulted host w.pager page :: past) w.pager (w.fault host address).pager o
            (k / o.shape.chunkLen) taken roomy e := by
  refine ⟨fun w reachable host address after => ?_, fun past w lived fine => ⟨law_of_lived settings past w lived fine, ?_⟩⟩
  · have serving := fault_serving host w address after
    have ledger := (keeps_of_reachable settings w reachable serving).ledger
    have storeless := storeless_of_reachable settings w reachable serving
    obtain ⟨q, run, -, resolved⟩ := resolved_of_serving host w address ledger after
    rw [fault_answered host w address q run]
    exact calls_once_of_resolved w.pager q _ ledger storeless resolved
  · rintro host address _ rfl after
    have serving := fault_serving host w address after
    have story := story_of_lived settings past w lived serving
    have ledger := (told_of_story settings past w.pager story).ledger
    obtain ⟨q, run, -, resolved⟩ := resolved_of_serving host w address ledger after
    rw [fault_answered host w address q run]
    exact fills_of_resolved settings past host w.pager q _ story run resolved

end Worker

end DemandPaging

namespace DemandPaging.Worker

open Pager

-- A page that is touched again while it is there, and nothing is given back or reset.
theorem fills_resident_again : ¬ ∀ (settings : Settings) (past : List Deed) (w : Worker), Lived settings past w →
    (∀ failure, w.ending? ≠ some (.error failure)) →
    ∀ (newer mid older : List Event) (later earlier : FillCall) (key : ChunkKey),
      w.pager.journal = newer ++ .filling later :: (mid ++ .filling earlier :: older) →
      later.chunk? (template? past) = some key → earlier.chunk? (template? past) = some key →
      .reset key.1 ∈ mid ∨ ∃ saved, .reclaimed key.1 key.2 saved ∈ mid := by
  intro apart
  obtain ⟨past, lived⟩ := lived_allotted
  obtain ⟨p, first, lone, came⟩ := lone_touched allotted serving_allotted lone_allotted
  obtain ⟨q, second, twice, stayed⟩ := lone_touched { allotted with pager := p, interrupts := 0 } serving_allotted lone
  have once := Lived.faulted (Host.plain []) (Host.plain_yields []).releases _ _ Host.lowest lived serving_allotted
  rw [first] at once
  have again := Lived.faulted (Host.plain []) (Host.plain_yields []).releases _ _ Host.lowest once serving_allotted
  rw [second] at again
  have quiet : allotted.pager.journal = [] := List.isEmpty_iff.mp (by decide +kernel)
  have absent : ¬ allotted.pager.Resident ⟨1⟩ 0 := by decide +kernel
  have journal : q.journal = [] ++ .filling (Template.onePage.call ⟨1⟩ 0) ::
      ([.installed ⟨1⟩ 0] ++ .filling (Template.onePage.call ⟨1⟩ 0) :: []) := by
    rw [(stayed.stays came.resident).1, (came.comes absent).1, quiet]
    rfl
  obtain ⟨o, alone, template, entry⟩ := twice.alone
  have known := (told_of_story _ _ q (story_of_lived _ _ _ again serving_allotted)).known o (alone ▸ List.mem_singleton_self o)
  rw [template, show o.id = ⟨1⟩ from congrArg Entry.owner entry] at known
  have key := chunk_of_call _ .onePage ⟨1⟩ 0 known (by decide)
  have fine : ∀ failure, Worker.ending? { allotted with pager := q, interrupts := 0 } ≠ some (.error failure) :=
    fun failure ended => not_serving_of_ending _ _ ended serving_allotted
  rcases apart _ _ _ again fine [] [.installed ⟨1⟩ 0] [] _ _ (⟨1⟩, 0) journal key key with impossible | ⟨saved, impossible⟩
  · cases List.mem_singleton.mp impossible
  · cases List.mem_singleton.mp impossible

attribute [local instance] Platform.small

theorem fills_of_five_faults : ∃ past, FillLaw (template? past) (pressed 4).pager.journal ∧
    .reclaimed ⟨1⟩ 0 true ∈ (pressed 4).pager.journal ∧ .restored ⟨1⟩ 0 ∈ (pressed 4).pager.journal ∧
    ∃ last given, CallsOnce (granted 4).pager ((granted 4).fault (Host.plain []) 65536).pager last given := by
  obtain ⟨past, lived⟩ := lived_pressed
  have serving : (pressed 4).Serving := by decide +kernel
  obtain ⟨once, law⟩ := fills_of_runs .threePages
  exact ⟨past, (law past _ lived fun failure ended => not_serving_of_ending _ _ ended serving).1, by decide +kernel,
    by decide +kernel, once _ reachable_granted (Host.plain []) 65536 (by decide +kernel)⟩

end DemandPaging.Worker
