import Mathlib.Data.List.Basic
import DemandPaging.AddressMap

set_option autoImplicit false

namespace DemandPaging

namespace Entry

variable {α : Type}

def Holds (e : Entry α) (address : Nat) : Prop := e.base ≤ address ∧ address < e.stop

def Meets (e : Entry α) (base len : Nat) : Prop := e.base < base + len ∧ base < e.stop

end Entry

namespace Slot

variable {α : Type}

-- The first slot has a lower base, and if it is live its range ends before the second slot begins.
def Before (a b : Slot α) : Prop := a.base < b.base ∧ ∀ e, a.entry? = some e → e.stop ≤ b.base

def Proper (s : Slot α) : Prop := ∀ e, s.entry? = some e → 0 < e.len ∧ e.stop < Word.limit

theorem locate_lt_iff (s : Slot α) (address : Nat) : s.locate address = .lt ↔ address < s.base := by
  unfold locate
  cases s <;> grind [base]

theorem locate_gt_iff (s : Slot α) (address : Nat) (proper : s.Proper) :
    s.locate address = .gt ↔ s.base < address ∧ ∀ e, s.entry? = some e → e.stop ≤ address := by
  cases s with
  | vacant base =>
      simp only [locate, Slot.base, entry?]
      grind
  | taken e =>
      have positive := (proper e rfl).1
      simp only [locate, Slot.base, entry?, Entry.stop, Option.some.injEq, forall_eq']
      grind

theorem locate_eq_taken_iff (e : Entry α) (address : Nat) : (taken e).locate address = .eq ↔ e.Holds address := by
  simp only [locate, base, Entry.Holds, Entry.stop]
  grind

theorem locate_eq_vacant_iff (b address : Nat) : (vacant b : Slot α).locate address = .eq ↔ address = b := by
  simp only [locate, base]
  grind

theorem before_locate_lt (a b : Slot α) (address : Nat) (proper : a.Proper) (before : Before a b)
    (reached : a.locate address ≠ .gt) : b.locate address = .lt := by
  rw [locate_lt_iff]
  rw [Ne, locate_gt_iff a address proper] at reached
  obtain ⟨below, stops⟩ := before
  by_contra notBelow
  apply reached
  refine ⟨by omega, fun e live => ?_⟩
  have := stops e live
  omega

theorem before_locate_gt (a b : Slot α) (address : Nat) (proper : a.Proper) (before : Before a b)
    (reached : b.locate address ≠ .lt) : a.locate address = .gt := by
  by_contra notAbove
  exact reached (before_locate_lt a b address proper before notAbove)

theorem entry_some_iff (s : Slot α) (e : Entry α) : s.entry? = some e ↔ s = .taken e := by
  cases s <;> simp [ entry?]

end Slot

namespace AddressMap

variable {α : Type}

structure Sound (m : AddressMap α) : Prop where
  before : m.slots.toList.Pairwise Slot.Before
  proper : ∀ s ∈ m.slots.toList, s.Proper
  live : m.live = m.toList.length

theorem sound_empty : (empty : AddressMap α).Sound where
  before := List.Pairwise.nil
  proper := by simp [empty]
  live := rfl

theorem mem_to_list_iff (m : AddressMap α) (e : Entry α) : e ∈ m.toList ↔ Slot.taken e ∈ m.slots.toList := by
  simp only [toList, List.mem_filterMap, Slot.entry_some_iff, exists_eq_right]

def Splits (slots : List (Slot α)) (address : Nat) : Probe → Prop
  | .hit i => ∃ before slot after, slots = before ++ slot :: after ∧ before.length = i ∧ slot.locate address = .eq ∧
      (∀ s ∈ before, s.locate address = .gt) ∧ ∀ s ∈ after, s.locate address = .lt
  | .miss i => ∃ before after, slots = before ++ after ∧ before.length = i ∧
      (∀ s ∈ before, s.locate address = .gt) ∧ ∀ s ∈ after, s.locate address = .lt

theorem splits_hit (slots : Array (Slot α)) (address i : Nat) (slot : Slot α)
    (before : slots.toList.Pairwise Slot.Before) (proper : ∀ s ∈ slots.toList, s.Proper)
    (found : slots[i]? = some slot) (equal : slot.locate address = .eq) : Splits slots.toList address (.hit i) := by
  have foundList : slots.toList[i]? = some slot := by simpa using found
  obtain ⟨inside, read⟩ := List.getElem?_eq_some_iff.mp foundList
  have split : slots.toList = slots.toList.take i ++ slot :: slots.toList.drop (i + 1) := by
    rw [← read, ← List.drop_eq_getElem_cons inside, List.take_append_drop]
  have slotProper : slot.Proper := proper slot (by rw [split]; simp)
  rw [split, List.pairwise_append, List.pairwise_cons] at before
  refine ⟨_, slot, _, split, List.length_take_of_le (Nat.le_of_lt inside), equal, fun s member => ?_, fun s member => ?_⟩
  · exact Slot.before_locate_gt s slot address (proper s (List.mem_of_mem_take member))
      (before.2.2 s member slot (by simp)) (by simp [equal])
  · exact Slot.before_locate_lt slot s address slotProper (before.2.1.1 s member) (by simp [equal])

-- The induction is on the part of the array still searched; what lies outside of it is known to be below or above.
theorem search_from_splits (slots : Array (Slot α)) (address lo hi : Nat)
    (before : slots.toList.Pairwise Slot.Before) (proper : ∀ s ∈ slots.toList, s.Proper)
    (order : lo ≤ hi) (inside : hi ≤ slots.size)
    (below : ∀ j s, j < lo → slots[j]? = some s → s.locate address = .gt)
    (above : ∀ j s, hi ≤ j → slots[j]? = some s → s.locate address = .lt) :
    Splits slots.toList address (searchFrom slots address lo hi) := by
  rw [searchFrom]
  by_cases more : lo < hi
  · have midInside : lo + (hi - lo) / 2 < slots.size := by omega
    simp only [more, dif_pos, Array.getElem?_eq_getElem midInside]
    generalize midEq : lo + (hi - lo) / 2 = mid at midInside
    have sorted := List.pairwise_iff_getElem.mp before
    have midProper : slots[mid].Proper := proper _ (by simp)
    cases located : slots[mid].locate address with
    | lt =>
        apply search_from_splits slots address lo mid before proper (by omega) (by omega) below
        intro j s later read
        obtain ⟨jInside, rfl⟩ := Array.getElem?_eq_some_iff.mp read
        by_cases same : j = mid
        · subst same
          exact located
        · exact Slot.before_locate_lt slots[mid] slots[j] address midProper
            (sorted mid j midInside jInside (by omega)) (by simp [located])
    | gt =>
        apply search_from_splits slots address (mid + 1) hi before proper (by omega) inside _ above
        intro j s earlier read
        obtain ⟨jInside, rfl⟩ := Array.getElem?_eq_some_iff.mp read
        by_cases same : j = mid
        · subst same
          exact located
        · exact Slot.before_locate_gt slots[j] slots[mid] address (proper _ (by simp))
            (sorted j mid jInside midInside (by omega)) (by simp [located])
    | eq => exact splits_hit slots address mid slots[mid] before proper (Array.getElem?_eq_getElem midInside) located
  · simp only [more, dif_neg, not_false_eq_true]
    have met : lo = hi := by omega
    subst met
    refine ⟨slots.toList.take lo, slots.toList.drop lo, (List.take_append_drop _ _).symm, ?_, ?_, ?_⟩
    · exact List.length_take_of_le (by simpa using inside)
    · intro s member
      obtain ⟨j, bound, rfl⟩ := List.mem_take_iff_getElem.mp member
      exact below j _ (by omega) (by simp)
    · intro s member
      obtain ⟨j, bound, rfl⟩ := List.mem_drop_iff_getElem.mp member
      exact above (lo + j) _ (by omega) (by simp)
termination_by hi - lo

theorem search_splits (m : AddressMap α) (address : Nat) (sound : m.Sound) :
    Splits m.slots.toList address (m.search address) := by
  apply search_from_splits m.slots address 0 m.slots.size sound.before sound.proper (by omega) (by omega)
  · intro j s impossible
    omega
  · intro j s outside read
    rw [Array.getElem?_eq_none outside] at read
    cases read

theorem getElem_of_split (slots : Array (Slot α)) (before : List (Slot α)) (slot : Slot α) (after : List (Slot α))
    (split : slots.toList = before ++ slot :: after) : slots[before.length]? = some slot := by
  rw [← Array.getElem?_toList, split]
  simp

theorem find_eq_some_iff (m : AddressMap α) (address : Nat) (e : Entry α) (sound : m.Sound) :
    m.find? address = some e ↔ e ∈ m.toList ∧ e.Holds address := by
  have splits := search_splits m address sound
  have unequal : ∀ s ∈ m.slots.toList, s = .taken e → e.Holds address → s.locate address = .eq := by
    intro s _ same holds
    subst same
    exact (Slot.locate_eq_taken_iff e address).mpr holds
  rw [mem_to_list_iff]
  rw [find?]
  cases probe : m.search address with
  | hit i =>
      rw [probe] at splits
      obtain ⟨before, slot, after, split, rfl, equal, below, above⟩ := splits
      simp only [getElem_of_split m.slots before slot after split, Option.bind_some, Slot.entry_some_iff]
      constructor
      · intro same
        subst same
        exact ⟨by rw [split]; simp, (Slot.locate_eq_taken_iff e address).mp equal⟩
      · intro given
        obtain ⟨member, holds⟩ := given
        have located := unequal _ member rfl holds
        rw [split, List.mem_append, List.mem_cons] at member
        rcases member with early | same | late
        · rw [below _ early] at located
          cases located
        · exact same.symm
        · rw [above _ late] at located
          cases located
  | miss i =>
      rw [probe] at splits
      obtain ⟨before, after, split, rfl, below, above⟩ := splits
      simp only [reduceCtorEq, false_iff, not_and]
      intro member holds
      have located := unequal _ member rfl holds
      rw [split, List.mem_append] at member
      rcases member with early | late
      · rw [below _ early] at located
        cases located
      · rw [above _ late] at located
        cases located

theorem sound_holds_unique (m : AddressMap α) (address : Nat) (a b : Entry α) (sound : m.Sound)
    (first : a ∈ m.toList) (second : b ∈ m.toList) (inFirst : a.Holds address) (inSecond : b.Holds address) : a = b := by
  have found := (find_eq_some_iff m address a sound).mpr ⟨first, inFirst⟩
  rw [(find_eq_some_iff m address b sound).mpr ⟨second, inSecond⟩] at found
  exact (Option.some.inj found).symm

end AddressMap

end DemandPaging
