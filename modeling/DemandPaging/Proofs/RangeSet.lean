import Mathlib.Data.Set.Card
import DemandPaging.Proofs.RangeInsertion

set_option autoImplicit false

namespace DemandPaging.AddressMap

variable {α : Type}

inductive Op (α : Type) where
  | insert (base len : Nat) (owner : α)
  | remove (base : Nat)
  | drain
  | findOwner (address : Nat)
  | findEntry (address : Nat)
  | list
  | count

inductive Answer (α : Type) where
  | inserted
  | removed (owner : α)
  | refused (why : Refusal)
  | owner (found : Option α)
  | entry (found : Option (Entry α))
  | entries (all : List (Entry α))
  | count (live : Nat)

-- One operation on the map. A refused operation leaves the map as it was.
def perform (m : AddressMap α) : Op α → Answer α × AddressMap α
  | .insert base len owner =>
    match m.insert base len owner with
    | .ok next => (.inserted, next)
    | .error why => (.refused why, m)
  | .remove base =>
    match m.remove base with
    | .ok (owner, next) => (.removed owner, next)
    | .error why => (.refused why, m)
  | .drain => (.entries m.drain.1, m.drain.2)
  | .findOwner address => (.owner ((m.find? address).map Entry.owner), m)
  | .findEntry address => (.entry (m.find? address), m)
  | .list => (.entries m.toList, m)
  | .count => (.count m.live, m)

def performAll (m : AddressMap α) : List (Op α) → List (Answer α) × AddressMap α
  | [] => ([], m)
  | op :: ops =>
    let (answer, next) := m.perform op
    let (answers, last) := next.performAll ops
    (answer :: answers, last)

-- A list names every range of a set once, in rising order of base.
def Lists (all : List (Entry α)) (ranges : Set (Entry α)) : Prop :=
  all.Pairwise (fun a b => a.base < b.base) ∧ ∀ e, e ∈ all ↔ e ∈ ranges

def Answers (ranges : Set (Entry α)) : Op α → Answer α → Set (Entry α) → Prop
  | .insert base len owner, answer, next =>
    (answer = .refused .emptyRange ∧ len = 0 ∧ next = ranges) ∨
      (answer = .refused .overlap ∧ (len ≠ 0 ∧ (Word.limit ≤ base + len ∨ ∃ e ∈ ranges, e.Meets base len)) ∧
        next = ranges) ∨
      (answer = .inserted ∧ (len ≠ 0 ∧ base + len < Word.limit ∧ ∀ e ∈ ranges, ¬ e.Meets base len) ∧
        next = ranges ∪ {⟨base, len, owner⟩})
  | .remove base, answer, next =>
    (answer = .refused .missing ∧ (∀ e ∈ ranges, e.base ≠ base) ∧ next = ranges) ∨
      ∃ e ∈ ranges, e.base = base ∧ answer = .removed e.owner ∧ next = ranges \ {e}
  | .drain, answer, next => ∃ all, answer = .entries all ∧ Lists all ranges ∧ next = ∅
  | .findOwner address, answer, next =>
    next = ranges ∧ ((answer = .owner none ∧ ∀ e ∈ ranges, ¬ e.Holds address) ∨
      ∃ e ∈ ranges, e.Holds address ∧ (∀ other ∈ ranges, other.Holds address → other = e) ∧
        answer = .owner (some e.owner))
  | .findEntry address, answer, next =>
    next = ranges ∧ ((answer = .entry none ∧ ∀ e ∈ ranges, ¬ e.Holds address) ∨
      ∃ e ∈ ranges, e.Holds address ∧ (∀ other ∈ ranges, other.Holds address → other = e) ∧ answer = .entry (some e))
  | .list, answer, next => ∃ all, answer = .entries all ∧ Lists all ranges ∧ next = ranges
  | .count, answer, next => ranges.Finite ∧ answer = .count ranges.ncard ∧ next = ranges

inductive History : Set (Entry α) → List (Op α) → List (Answer α) → Set (Entry α) → Prop where
  | nil (ranges : Set (Entry α)) : History ranges [] [] ranges
  | cons (ranges next last : Set (Entry α)) (op : Op α) (ops : List (Op α)) (answer : Answer α) (answers : List (Answer α))
      (first : Answers ranges op answer next) (rest : History next ops answers last) :
      History ranges (op :: ops) (answer :: answers) last

def ranges (m : AddressMap α) : Set (Entry α) := {e | e ∈ m.toList}

theorem mem_ranges (m : AddressMap α) (e : Entry α) : e ∈ m.ranges ↔ e ∈ m.toList := Iff.rfl

theorem to_list_rising (m : AddressMap α) (sound : m.Sound) : m.toList.Pairwise fun a b => a.base < b.base := by
  rw [toList]
  rw [List.pairwise_filterMap]
  refine sound.before.imp ?_
  intro a b before e first other second
  rw [Slot.entry_some_iff] at first second
  subst first
  subst second
  exact before.1

theorem to_list_lists (m : AddressMap α) (sound : m.Sound) : Lists m.toList m.ranges :=
  ⟨to_list_rising m sound, fun _ => Iff.rfl⟩

theorem lists_nodup (all : List (Entry α)) (ranges : Set (Entry α)) (lists : Lists all ranges) : all.Nodup :=
  lists.1.imp fun less same => by simp [same] at less

theorem ranges_finite (m : AddressMap α) : m.ranges.Finite := List.finite_toSet m.toList

theorem live_eq_ncard (m : AddressMap α) (sound : m.Sound) : m.live = m.ranges.ncard := by
  classical
  have nodup := lists_nodup _ _ (to_list_lists m sound)
  have finset : m.ranges = (m.toList.toFinset : Set (Entry α)) := by
    ext e
    simp [mem_ranges]
  rw [finset, Set.ncard_coe_finset, List.toFinset_card_of_nodup nodup, sound.live]

theorem perm_ranges (m next : AddressMap α) (e : Entry α) (perm : next.toList.Perm (e :: m.toList)) :
    next.ranges = m.ranges ∪ {e} := by
  ext other
  simp only [mem_ranges, perm.mem_iff, List.mem_cons, Set.mem_union, Set.mem_singleton_iff]
  exact or_comm

theorem perform_insert (m : AddressMap α) (base len : Nat) (owner : α) (sound : m.Sound) :
    (m.perform (.insert base len owner)).2.Sound ∧
      Answers m.ranges (.insert base len owner) (m.perform (.insert base len owner)).1
        (m.perform (.insert base len owner)).2.ranges := by
  by_cases empty : len = 0
  · subst empty
    simp only [perform, insert_empty]
    exact ⟨sound, Or.inl ⟨rfl, rfl, rfl⟩⟩
  · by_cases overlaps : Word.limit ≤ base + len ∨ ∃ e ∈ m.toList, e.Meets base len
    · simp only [perform, insert_overlapping m base len owner sound empty overlaps]
      exact ⟨sound, Or.inr (Or.inl ⟨rfl, ⟨empty, overlaps⟩, rfl⟩)⟩
    · obtain ⟨fits, free⟩ := not_or.mp overlaps
      have apart : ∀ e ∈ m.toList, ¬ e.Meets base len := fun e member meets => free ⟨e, member, meets⟩
      obtain ⟨next, inserted, nextSound, perm⟩ :=
        insert_free m base len owner sound empty (Nat.not_le.mp fits) apart
      simp only [perform, inserted]
      exact ⟨nextSound, Or.inr (Or.inr ⟨rfl, ⟨empty, Nat.not_le.mp fits, apart⟩, perm_ranges m next _ perm⟩)⟩

theorem perform_remove (m : AddressMap α) (base : Nat) (sound : m.Sound) :
    (m.perform (.remove base)).2.Sound ∧
      Answers m.ranges (.remove base) (m.perform (.remove base)).1 (m.perform (.remove base)).2.ranges := by
  by_cases live : ∃ e ∈ m.toList, e.base = base
  · obtain ⟨e, member, rfl⟩ := live
    obtain ⟨next, removed, nextSound, perm⟩ := remove_live m e sound member
    simp only [perform, removed]
    refine ⟨nextSound, Or.inr ⟨e, member, rfl, rfl, ?_⟩⟩
    have nodup := lists_nodup _ _ (to_list_lists m sound)
    rw [perm.nodup_iff, List.nodup_cons] at nodup
    rw [perm_ranges next m e perm]
    ext other
    simp only [mem_ranges, Set.mem_sdiff, Set.mem_union, Set.mem_singleton_iff]
    constructor
    · intro kept
      exact ⟨Or.inl kept, fun same => nodup.1 (same ▸ kept)⟩
    · intro given
      obtain ⟨kept | same, different⟩ := given
      · exact kept
      · exact absurd same different
  · have absent : ∀ e ∈ m.toList, e.base ≠ base := fun e member same => live ⟨e, member, same⟩
    simp only [perform, remove_missing m base absent]
    exact ⟨sound, Or.inl ⟨rfl, absent, rfl⟩⟩

theorem find_cases (m : AddressMap α) (address : Nat) (sound : m.Sound) :
    (m.find? address = none ∧ ∀ e ∈ m.ranges, ¬ e.Holds address) ∨
      ∃ e ∈ m.ranges, e.Holds address ∧ (∀ other ∈ m.ranges, other.Holds address → other = e) ∧
        m.find? address = some e := by
  cases found : m.find? address with
  | none =>
      refine Or.inl ⟨rfl, fun e member holds => ?_⟩
      rw [(find_eq_some_iff m address e sound).mpr ⟨member, holds⟩] at found
      cases found
  | some e =>
      obtain ⟨member, holds⟩ := (find_eq_some_iff m address e sound).mp found
      refine Or.inr ⟨e, member, holds, fun other otherMember otherHolds => ?_, rfl⟩
      exact sound_holds_unique m address other e sound otherMember member otherHolds holds

theorem perform_answers (m : AddressMap α) (op : Op α) (sound : m.Sound) :
    (m.perform op).2.Sound ∧ Answers m.ranges op (m.perform op).1 (m.perform op).2.ranges := by
  cases op with
  | insert base len owner => exact perform_insert m base len owner sound
  | remove base => exact perform_remove m base sound
  | drain =>
      refine ⟨⟨List.Pairwise.nil, by simp [perform, drain], rfl⟩, m.toList, rfl, to_list_lists m sound, ?_⟩
      ext e
      simp [mem_ranges, perform, drain, toList]
  | findOwner address =>
      refine ⟨sound, rfl, ?_⟩
      rcases find_cases m address sound with ⟨found, absent⟩ | ⟨e, member, holds, unique, found⟩
      · exact Or.inl ⟨by simp only [perform, found, Option.map_none], absent⟩
      · exact Or.inr ⟨e, member, holds, unique, by simp only [perform, found, Option.map_some]⟩
  | findEntry address =>
      refine ⟨sound, rfl, ?_⟩
      rcases find_cases m address sound with ⟨found, absent⟩ | ⟨e, member, holds, unique, found⟩
      · exact Or.inl ⟨by simp only [perform, found], absent⟩
      · exact Or.inr ⟨e, member, holds, unique, by simp only [perform, found]⟩
  | list => exact ⟨sound, m.toList, rfl, to_list_lists m sound, rfl⟩
  | count => exact ⟨sound, ranges_finite m, by simp only [perform, live_eq_ncard m sound], rfl⟩

theorem perform_all_history (m : AddressMap α) (ops : List (Op α)) (sound : m.Sound) :
    (m.performAll ops).2.Sound ∧ History m.ranges ops (m.performAll ops).1 (m.performAll ops).2.ranges := by
  induction ops generalizing m with
  | nil => exact ⟨sound, .nil m.ranges⟩
  | cons op ops ih =>
      obtain ⟨nextSound, first⟩ := perform_answers m op sound
      obtain ⟨lastSound, rest⟩ := ih (m.perform op).2 nextSound
      exact ⟨lastSound, .cons _ _ _ op ops _ _ first rest⟩

theorem sound_in_order (m : AddressMap α) (sound : m.Sound) : m.inOrder = true := by
  have neighbours : ∀ slots : List (Slot α), slots.Pairwise Slot.Before → inOrder.go slots = true := by
    intro slots before
    induction slots with
    | nil => rfl
    | cons a rest ih =>
        rw [List.pairwise_cons] at before
        cases rest with
        | nil => rfl
        | cons b rest =>
            obtain ⟨less, stops⟩ := before.1 b List.mem_cons_self
            have apart : a.entry?.all (fun e => decide (e.stop ≤ b.base)) = true := by
              cases live : a.entry? with
              | none => rfl
              | some e => simpa using stops e live
            simp only [inOrder.go, less, decide_true, apart, ih before.2, Bool.and_self]
  simp only [inOrder, neighbours _ sound.before, sound.live, beq_self_eq_true, Bool.and_self]

theorem history_of_ranges (ops : List (Op α)) :
    let m := (empty.performAll ops).2
    History ∅ ops (empty.performAll ops).1 m.ranges ∧
      m.slots.toList.Pairwise (fun a b => a.base < b.base ∧ ∀ e, a.entry? = some e → ¬ e.Holds b.base) ∧
      (∀ e ∈ m.toList, e.stop < Word.limit) ∧
      m.live = m.ranges.ncard ∧ m.inOrder = true ∧
      ∀ op why, (m.perform op).1 = .refused why → (m.perform op).2 = m := by
  intro m
  obtain ⟨sound, history⟩ := perform_all_history (empty : AddressMap α) ops sound_empty
  have nothing : (empty : AddressMap α).ranges = ∅ := by
    ext e
    simp [mem_ranges, toList, empty]
  rw [nothing] at history
  refine ⟨history, ?_, ?_, live_eq_ncard m sound, sound_in_order m sound, ?_⟩
  · refine sound.before.imp ?_
    intro a b given
    obtain ⟨less, stops⟩ := given
    refine ⟨less, fun e live holds => ?_⟩
    have stop := stops e live
    have inside := holds.2
    omega
  · intro e member
    exact (sound.proper _ ((mem_to_list_iff m e).mp member) e rfl).2
  · intro op why refused
    cases op with
    | insert base len owner =>
        cases inserted : m.insert base len owner with
        | ok next => simp [perform, inserted] at refused
        | error cause => simp only [perform, inserted]
    | remove base =>
        cases removed : m.remove base with
        | ok pair => simp [perform, removed] at refused
        | error cause => simp only [perform, removed]
    | drain => cases refused
    | findOwner address => rfl
    | findEntry address => rfl
    | list => rfl
    | count => rfl

end DemandPaging.AddressMap
