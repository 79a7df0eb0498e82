import DemandPaging.Proofs.Views

set_option autoImplicit false

namespace DemandPaging

variable [Platform]

-- An object of the plain memory. `value` is what the filler writes into its body.
structure PlainObject where
  base : Nat
  template : Template
  value : Nat → UInt8
  bytes : Nat → UInt8

namespace PlainObject

def fresh (base : Nat) (template : Template) (value : Nat → UInt8) : PlainObject where
  base
  template
  value
  bytes k := if k < template.shape.headerPadded then 0 else template.pristine value (k - template.shape.headerPadded)

def reset (x : PlainObject) : PlainObject :=
  { x with bytes := fun k =>
      if k < x.template.shape.headerPadded then x.bytes k
      else x.template.pristine x.value (k - x.template.shape.headerPadded) }

def store (x : PlainObject) (k : Nat) (b : UInt8) : PlainObject :=
  { x with bytes := fun j => if j = k then b else x.bytes j }

end PlainObject

-- The plain memory, and with which bytes each chunk was last installed.
structure Shadow where
  memory : ObjectId → Option PlainObject
  installed : ObjectId → Nat → Bytes

namespace Shadow

def empty : Shadow := ⟨fun _ => none, fun _ _ => #[]⟩

def put (s : Shadow) (id : ObjectId) (x : Option PlainObject) : Shadow :=
  { s with memory := fun other => if other = id then x else s.memory other }

-- The plain memory after a request, given its reply. `value` is what the filler of a new object writes.
def serve (s : Shadow) (value : Nat → UInt8) : Request → Reply → Shadow
  | .allocate id template, .granted grant => s.put id (some (.fresh grant.base template value))
  | .free id, .done => s.put id none
  | .reset id, .done => s.put id ((s.memory id).map .reset)
  | _, _ => s

end Shadow

namespace Managed

-- The object shows what the plain object holds. Of a read-only object nothing is said about the bytes.
structure Shows (o : Managed) (x : PlainObject) : Prop where
  base : o.mapping.base = x.base
  template : o.template = x.template
  fills : o.template.Fills x.value
  bytes : o.template.readOnly = false → ∀ k, k < o.shape.size → o.view x.value k = x.bytes k

-- The record of a chunk that may have to be saved goes with the bytes with which the chunk was installed.
def Noted (o : Managed) (value : Nat → UInt8) (installed : Nat → Bytes) (r : Residency) : Prop :=
  o.swap.isSome = true → r.digest = Digest.of (installed r.chunk) ∧ o.Brought value r.chunk (installed r.chunk)

end Managed

def Pager.noted (p q : Pager) (installed : ObjectId → Nat → Bytes) (id : ObjectId) (i : Nat) : Bytes :=
  if q.Resident id i ∧ ¬ p.Resident id i then ((q.object? id).map fun o => o.contents i).getD #[] else installed id i

def Shadow.noting (s : Shadow) (p q : Pager) : Shadow := { s with installed := p.noted q s.installed }

namespace Pager

-- No chunk that was evicted in a step, and that may have to be saved, had the digest of other bytes than its own.
def Undeceived (p q : Pager) (installed : ObjectId → Nat → Bytes) : Prop :=
  ∀ o ∈ p.objects, o.swap.isSome = true → ∀ i, p.Resident o.id i → ¬ q.Resident o.id i →
    Digest.of (o.contents i) = Digest.of (installed o.id i) → o.contents i = installed o.id i

instance (p q : Pager) (installed : ObjectId → Nat → Bytes) : Decidable (Undeceived p q installed) :=
  decidable_of_iff (∀ o ∈ p.objects, o.swap.isSome = true → ∀ r ∈ p.live, r.owner = o.id → ¬ q.Resident o.id r.chunk →
    Digest.of (o.contents r.chunk) = Digest.of (installed o.id r.chunk) → o.contents r.chunk = installed o.id r.chunk) (by
    constructor
    · rintro each o member stores i ⟨r, isLive, key⟩
      obtain ⟨owner, rfl⟩ := Prod.mk.inj key
      exact each o member stores r isLive owner
    · intro all o member stores r isLive owner
      exact all o member stores r.chunk ⟨r, isLive, Prod.ext owner rfl⟩)

structure Mirrors (p : Pager) (s : Shadow) : Prop where
  held : ∀ id x, s.memory id = some x → ∃ o ∈ p.objects, o.id = id
  shown : ∀ o ∈ p.objects, ∃ x, s.memory o.id = some x ∧ o.Shows x ∧
    ∀ r ∈ p.live, r.owner = o.id → o.Noted x.value (s.installed o.id) r

section

variable (p q : Pager) (s : Shadow)

theorem mirrors_of_live (mirrors : p.Mirrors s) (objects : q.objects = p.objects) (live : ∀ r ∈ q.live, r ∈ p.live) :
    q.Mirrors s := by
  constructor
  · rw [objects]
    exact mirrors.held
  · rw [objects]
    intro o member
    obtain ⟨x, held, shows, noted⟩ := mirrors.shown o member
    exact ⟨x, held, shows, fun r isLive => noted r (live r isLive)⟩

theorem mirrors_revise (t : Shadow) (o later : Managed) (x : PlainObject) (member : o ∈ p.objects) (same : later.id = o.id)
    (mirrors : p.Mirrors s) (objects : q.objects = revised p.objects later) (own : t.memory o.id = some x)
    (shows : later.Shows x)
    (records : ∀ r ∈ q.live, r.owner = o.id → later.Noted x.value (t.installed o.id) r)
    (memory : ∀ id, id ≠ o.id → t.memory id = s.memory id)
    (others : ∀ r ∈ q.live, r.owner ≠ o.id →
      r ∈ p.live ∧ t.installed r.owner r.chunk = s.installed r.owner r.chunk) : q.Mirrors t := by
  have known : later.id ∈ p.objects.map Managed.id := same ▸ List.mem_map_of_mem member
  have members := fun y => mem_revised p.objects later y known
  rw [← objects] at members
  constructor
  · intro id y held
    by_cases ownId : id = o.id
    · exact ⟨later, (members later).mpr (Or.inl rfl), same.trans ownId.symm⟩
    · rw [memory id ownId] at held
      obtain ⟨z, zMember, zId⟩ := mirrors.held id y held
      exact ⟨z, (members z).mpr (Or.inr ⟨zMember, fun equal => ownId (zId.symm.trans (equal.trans same))⟩), zId⟩
  · intro y yMember
    cases (members y).mp yMember with
    | inl isLater =>
        subst isLater
        rw [same]
        exact ⟨x, own, shows, records⟩
    | inr old =>
        have apart : y.id ≠ o.id := same ▸ old.2
        obtain ⟨z, held, zShows, noted⟩ := mirrors.shown y old.1
        refine ⟨z, (memory y.id apart).trans held, zShows, fun r isLive owner stores => ?_⟩
        obtain ⟨before, unchanged⟩ := others r isLive (owner ▸ apart)
        rw [owner] at unchanged
        rw [unchanged]
        exact noted r before owner stores

end

section

variable (p m q : Pager) (s : Shadow)

structure Passing : Prop where
  mirrors : m.Mirrors s
  fewer : ∀ id i, m.Resident id i → p.Resident id i
  contents : ∀ o ∈ p.objects, ∀ x ∈ m.objects, x.id = o.id → ∀ i, m.Resident o.id i → x.contents i = o.contents i

theorem chunk_present (ledger : Ledger m) (x : Managed) (member : x ∈ m.objects) (i : Nat) (resident : m.Resident x.id i) :
    ∀ d, d < x.shape.bodyReserved → d / x.shape.chunkLen = i → x.hasBody d = true := by
  intro d body inside
  rw [ledger.present x member d body, inside]
  exact resident

section

variable (oldest : Residency) (queue : CircularQueue Residency) (x later : Managed) (saved : Bool) (ledger : Ledger m)
  (front : m.queue.toList = oldest :: queue.toList) (member : x ∈ m.objects) (of : oldest.Of x)
  (evicted : x.Evicted oldest saved later)

include ledger front of

theorem live_relieved (r : Residency) (left : r ∈ ({ m with queue }.relieved oldest saved later).live) :
    r ∈ m.live ∧ r.key ≠ oldest.key := by
  have live := live_pop m oldest queue front (oldest.of_len_pos x of)
  have distinct := ledger.distinct
  rw [live, List.map_cons, List.nodup_cons] at distinct
  exact ⟨live ▸ List.mem_cons_of_mem _ left, fun same => distinct.1 (same ▸ List.mem_map_of_mem left)⟩

include member evicted

theorem clean_of_unsaved (lasts : Lasts p m) (passing : Passing p m s)
    (honest : Undeceived p ({ m with queue }.relieved oldest saved later) s.installed) (value : Nat → UInt8)
    (noted : x.Noted value (s.installed x.id) oldest) (stores : x.swap.isSome = true) (unsaved : saved = false) :
    x.Brought value oldest.chunk (x.contents oldest.chunk) := by
  have live := live_pop m oldest queue front (oldest.of_len_pos x of)
  have gone := resident_relieved m oldest queue saved later live ledger.distinct
  have resident : m.Resident x.id oldest.chunk := ⟨oldest, live ▸ List.mem_cons_self, by rw [Residency.key, of.owner]⟩
  obtain ⟨o, oMember, before⟩ := lasts.back x member
  obtain ⟨store, given⟩ := Option.isSome_iff_exists.mp stores
  obtain ⟨digest, brought⟩ := noted stores
  have same := (evicted.kept unsaved).2 store given
  have contents := passing.contents o oMember x member before.id oldest.chunk (before.id ▸ resident)
  rw [digest, contents, before.id] at same
  have evictedNow : ¬ ({ m with queue }.relieved oldest saved later).Resident o.id oldest.chunk := by
    rw [gone, Residency.key, of.owner, before.id]
    exact fun stays => stays.2 rfl
  have equal := honest o oMember ((o.stores_becomes x before).symm.trans stores) oldest.chunk
    (passing.fewer o.id oldest.chunk (before.id ▸ resident)) evictedNow same
  rw [contents, equal, ← before.id]
  exact brought

theorem mirrors_relieved (plain : PlainObject) (mirrors : m.Mirrors s) (held : s.memory x.id = some plain)
    (shows : x.Shows plain) (noted : ∀ r ∈ m.live, r.owner = x.id → x.Noted plain.value (s.installed x.id) r)
    (clean : x.swap.isSome = true → saved = false → x.Brought plain.value oldest.chunk (x.contents oldest.chunk)) :
    ({ m with queue }.relieved oldest saved later).Mirrors s := by
  have rest := live_relieved m oldest queue x later saved ledger front of
  have live := live_pop m oldest queue front (oldest.of_len_pos x of)
  have resident : m.Resident x.id oldest.chunk := ⟨oldest, live ▸ List.mem_cons_self, by rw [Residency.key, of.owner]⟩
  have becomes := x.evicted_becomes later oldest saved evicted
  have sound := ledger.sound x member
  apply mirrors_revise m _ s s x later plain member becomes.id mirrors rfl held
  · refine ⟨becomes.base.trans shows.base, becomes.template.trans shows.template, becomes.template ▸ shows.fills,
      fun writable k inside => ?_⟩
    rw [becomes.template] at writable
    rw [x.becomes_shape later becomes] at inside
    rw [x.view_evicted later plain.value oldest saved k evicted sound of.chunk
      (chunk_present m ledger x member oldest.chunk resident) (fun unsaved => clean ?_ unsaved) inside]
    · exact shows.bytes writable k inside
    · refine sound.writable writable fun nothing => ?_
      have starts := x.shape.chunk_begins oldest.chunk of.chunk
      have empty : x.shape.bodyReserved = 0 := by
        rw [Shape.bodyReserved, nothing, Page.roundUp_zero]
      omega
  · intro r left owner stores
    obtain ⟨before, other⟩ := rest r left
    obtain ⟨y, yMember, yOf⟩ := ledger.owned r before
    have own : y = x := same_of_id m y x ledger.ids yMember member (yOf.owner.symm.trans owner)
    subst own
    have apart : r.chunk ≠ oldest.chunk := fun same => other (Prod.ext (owner.trans of.owner.symm) same)
    obtain ⟨digest, brought⟩ := noted r before owner ((y.stores_becomes later becomes).symm.trans stores)
    refine ⟨digest, y.brought_congr later plain.value r.chunk _ yOf.chunk (y.becomes_shape later becomes) ?_ brought⟩
    intro d body inside
    exact y.source_evicted later plain.value oldest saved d evicted of.chunk body (inside.symm ▸ apart)
  · exact fun _ _ => rfl
  · exact fun r left _ => ⟨(rest r left).1, rfl⟩

theorem contents_relieved (o y : Managed) (oMember : o ∈ p.objects) (passing : Passing p m s)
    (yMember : y ∈ ({ m with queue }.relieved oldest saved later).objects) (same : y.id = o.id) (i : Nat)
    (left : ({ m with queue }.relieved oldest saved later).Resident o.id i) : y.contents i = o.contents i := by
  have live := live_pop m oldest queue front (oldest.of_len_pos x of)
  obtain ⟨leftBefore, other⟩ := (resident_relieved m oldest queue saved later live ledger.distinct o.id i).mp left
  have becomes := x.evicted_becomes later oldest saved evicted
  have known : later.id ∈ m.objects.map Managed.id := becomes.id ▸ List.mem_map_of_mem member
  cases (mem_revised m.objects later y known).mp yMember with
  | inl isLater =>
      subst isLater
      have before := passing.contents o oMember x member (becomes.id.symm.trans same) i leftBefore
      obtain ⟨r, rLive, key⟩ := leftBefore
      obtain ⟨z, zMember, zOf⟩ := ledger.owned r rLive
      have owner : r.owner = x.id := (congrArg Prod.fst key).trans (same.symm.trans becomes.id)
      have own : z = x := same_of_id m z x ledger.ids zMember member (zOf.owner.symm.trans owner)
      subst own
      have chunk : r.chunk = i := congrArg Prod.snd key
      have apart : i ≠ oldest.chunk := by
        intro equal
        apply other
        rw [Residency.key, of.owner, equal, ← same, becomes.id]
      rw [z.contents_evicted y oldest saved i evicted of.chunk (chunk ▸ zOf.chunk) apart]
      exact before
  | inr old => exact passing.contents o oMember y old.1 same i leftBefore

theorem passing_evicted (lasts : Lasts p m) (passing : Passing p m s)
    (honest : Undeceived p ({ m with queue }.relieved oldest saved later) s.installed) :
    Passing p ({ m with queue }.relieved oldest saved later) s := by
  have live := live_pop m oldest queue front (oldest.of_len_pos x of)
  obtain ⟨plain, held, shows, noted⟩ := passing.mirrors.shown x member
  have newest := noted oldest (live ▸ List.mem_cons_self) of.owner
  refine ⟨?_, fun id i left => ?_, fun o oMember y yMember same i left => ?_⟩
  · apply mirrors_relieved m s oldest queue x later saved ledger front member of evicted plain passing.mirrors held shows noted
    exact clean_of_unsaved p m s oldest queue x later saved ledger front member of evicted lasts passing honest plain.value
      newest
  · exact passing.fewer id i ((resident_relieved m oldest queue saved later live ledger.distinct id i).mp left).1
  · exact contents_relieved p m s oldest queue x later saved ledger front member of evicted o y oMember passing yMember same i
      left

end

theorem passing_turn (ledger : Ledger m) (lasts : Lasts p m) (passing : Passing p m s) (turn : Turn m q)
    (honest : Undeceived p q s.installed) : Passing p q s := by
  cases turn with
  | retired oldest queue popped len =>
      obtain ⟨-, front, -⟩ := pop_front m.queue queue oldest ledger.queue popped
      have live := live_pop_retired m oldest queue front len
      refine ⟨mirrors_of_live m _ s passing.mirrors rfl fun r left => live ▸ left, fun id i left => ?_,
        fun o oMember x member same i left => ?_⟩
      · apply passing.fewer id i
        rw [Resident, live]
        exact left
      · apply passing.contents o oMember x member same i
        rw [Resident, live]
        exact left
  | evicted oldest queue x later saved popped member of evicted =>
      obtain ⟨-, front, -⟩ := pop_front m.queue queue oldest ledger.queue popped
      exact passing_evicted p m s oldest queue x later saved ledger front member of evicted lasts passing honest

theorem mirrors_turns (ledger : Ledger p) (mirrors : p.Mirrors s) (turns : Turns p q)
    (honest : Undeceived p q s.installed) : Passing p q s := by
  induction turns with
  | refl =>
      refine ⟨mirrors, fun _ _ resident => resident, fun o oMember x member same i _ => ?_⟩
      rw [same_of_id p x o ledger.ids member oMember same]
  | tail before last ih =>
      have middle := ledger_turns p _ ledger before
      refine passing_turn p _ _ s middle (turns_last p _ ledger before) (ih ?_) last honest
      intro o member stores i resident gone
      exact honest o member stores i resident fun left => gone (turn_fewer _ _ middle last o.id i left)

end

end Pager

end DemandPaging
