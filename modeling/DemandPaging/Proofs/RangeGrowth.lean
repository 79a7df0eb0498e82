import DemandPaging.Proofs.RangeShifts

set_option autoImplicit false

namespace DemandPaging.AddressMap

variable {α : Type}

-- The most ranges that are live at one time over a sequence of operations, the first and the last moment included.
def peak (m : AddressMap α) : List (Op α) → Nat
  | [] => m.toList.length
  | op :: ops => max m.toList.length ((m.perform op).2.peak ops)

-- An insertion that is accepted while there is room for the slots in use only, and all of them are live.
def Outgrows (m : AddressMap α) (op : Op α) : Prop :=
  (∃ base len owner next, op = .insert base len owner ∧ m.insert base len owner = .ok next) ∧
    m.slots.size = m.capacity ∧ ∀ slot ∈ m.slots.toList, slot.isTaken = true

theorem all_taken_iff (m : AddressMap α) : (∀ slot ∈ m.slots.toList, slot.isTaken = true) ↔ ∀ i, vacantAt m.slots i = false := by
  constructor
  · intro taken i
    by_contra vacant
    rw [Bool.not_eq_false] at vacant
    obtain ⟨base, read⟩ := (vacant_at_iff m.slots i).mp vacant
    have live := taken _ (List.mem_of_getElem? read)
    cases live
  · intro none slot member
    cases slot with
    | taken e => rfl
    | vacant base =>
        obtain ⟨i, read⟩ := List.mem_iff_getElem?.mp member
        have vacant := (vacant_at_iff m.slots i).mpr ⟨base, read⟩
        rw [none] at vacant
        cases vacant

theorem opening_fresh_room (m : AddressMap α) (point : Nat) (sound : m.Sound) (inside : point ≤ m.slots.size)
    (fresh : m.opening point = .fresh) : m.slots.size < m.capacity ∨ ∀ i, vacantAt m.slots i = false := by
  by_cases vacancy : ∃ i, vacantAt m.slots i = true
  · have notHere : vacantAt m.slots point = false := by
      by_contra vacant
      rw [Bool.not_eq_false] at vacant
      rw [opening, if_pos vacant] at fresh
      cases fresh
    have possible := (opening_least m point sound inside notHere vacancy).1
    rw [fresh] at possible
    exact Or.inl possible
  · exact Or.inr (by simpa using vacancy)

theorem size_swallow_le (slots : Array (Slot α)) (index stop : Nat) : (swallow slots index stop).size ≤ slots.size := by
  have dropped := (List.dropWhile_sublist (l := slots.toList.drop (index + 1))
    (fun s => s.isVacant && s.base < stop)).length_le
  rw [List.length_drop] at dropped
  simp only [swallow, List.size_toArray, List.length_append, List.length_take, Array.length_toList] at dropped ⊢
  omega

theorem size_shifts (slot : Slot α) (opening : Opening) (given kept : List (Slot α)) (moved : Nat)
    (shifts : Shifts slot opening given kept moved) :
    (opening = .fresh ∧ kept.length = given.length + 1) ∨ (opening ≠ .fresh ∧ kept.length = given.length) := by
  cases shifts with
  | below lower between upper vacated => exact Or.inr ⟨by simp, by simp only [List.length_append, List.length_cons]; omega⟩
  | above lower between upper vacated => exact Or.inr ⟨by simp, by simp only [List.length_append, List.length_cons]; omega⟩
  | fresh lower between => exact Or.inl ⟨rfl, by simp only [List.length_append, List.length_cons]; omega⟩

theorem size_placed (m : AddressMap α) (before after : List (Slot α)) (slot : Slot α)
    (split : m.slots.toList = before ++ after) :
    let placed := (m.place before.length slot (m.opening before.length)).1
    (m.opening before.length = .fresh ∧ placed.slots.size = m.slots.size + 1 ∧ placed.capacity = m.grownCapacity) ∨
      (m.opening before.length ≠ .fresh ∧ placed.slots.size = m.slots.size ∧ placed.capacity = m.capacity) := by
  intro placed
  have fits := opening_fits m before.length
  have capacity : (m.opening before.length = .fresh → placed.capacity = m.grownCapacity) ∧
      (m.opening before.length ≠ .fresh → placed.capacity = m.capacity) := by
    cases chosen : m.opening before.length <;> simp [placed, chosen, place]
  by_cases here : m.opening before.length = .here
  · refine Or.inr ⟨by simp [here], ?_, capacity.2 (by simp [here])⟩
    simp only [placed, here, place, Array.size_setIfInBounds]
  · have shifts := place_shifts m before after slot _ split here fits
    rcases size_shifts slot _ _ _ _ shifts with ⟨fresh, longer⟩ | ⟨other, same⟩
    · rw [Array.length_toList, Array.length_toList] at longer
      exact Or.inl ⟨fresh, longer, capacity.1 fresh⟩
    · rw [Array.length_toList, Array.length_toList] at same
      exact Or.inr ⟨other, same, capacity.2 other⟩

structure Widens (m : AddressMap α) (op : Op α) (next : AddressMap α) : Prop where
  capacity : (m.Outgrows op ∧ next.capacity = m.capacity + max (m.capacity / 2) initialSlots) ∨
    (¬ m.Outgrows op ∧ next.capacity = m.capacity)
  fits : m.slots.size ≤ m.capacity → next.slots.size ≤ next.capacity

theorem widens_same (m next : AddressMap α) (op : Op α) (other : ∀ base len owner, op ≠ .insert base len owner)
    (size : next.slots.size ≤ m.slots.size) (capacity : next.capacity = m.capacity) : m.Widens op next where
  capacity := by
    refine Or.inr ⟨fun outgrows => ?_, capacity⟩
    obtain ⟨⟨base, len, owner, grown, same, -⟩, -⟩ := outgrows
    exact other base len owner same
  fits := fun given => by omega

theorem inserted_widens (m next : AddressMap α) (base len : Nat) (owner : α) (sound : m.Sound)
    (inserted : m.insert base len owner = .ok next) : m.Widens (.insert base len owner) next := by
  obtain ⟨before, after, clear, point⟩ := clear_of_inserted m next base len owner sound inserted
  have inside := insertion_point_inside m next base len owner sound inserted
  have placed := size_placed m before after (.taken ⟨base, len, owner⟩) clear.split
  obtain rfl := insert_eq_opened m next base len owner inserted
  have swallowed := size_swallow_le (m.opened ⟨base, len, owner⟩).1.slots (m.opened ⟨base, len, owner⟩).2 (base + len)
  simp only [opened, point] at inside swallowed ⊢
  rcases placed with ⟨fresh, size, capacity⟩ | ⟨notFresh, size, capacity⟩
  · by_cases full : m.slots.size = m.capacity
    · have grown : m.grownCapacity = m.capacity + max (m.capacity / 2) initialSlots := if_pos full
      have vacancies := (opening_fresh_room m before.length sound inside fresh).resolve_left (by omega)
      refine ⟨Or.inl ⟨⟨⟨base, len, owner, _, rfl, inserted⟩, full, (all_taken_iff m).mpr vacancies⟩, ?_⟩, fun _ => ?_⟩
      · rw [capacity, grown]
      · have more : 0 < initialSlots := by decide
        simp only [capacity, grown]
        omega
    · have same : m.grownCapacity = m.capacity := if_neg full
      refine ⟨Or.inr ⟨fun outgrows => full outgrows.2.1, ?_⟩, fun given => ?_⟩
      · rw [capacity, same]
      · simp only [capacity, same]
        omega
  · refine ⟨Or.inr ⟨fun outgrows => notFresh ?_, capacity⟩, fun given => ?_⟩
    · exact opening_full m before.length sound ((all_taken_iff m).mp outgrows.2.2)
    · simp only [capacity]
      omega

theorem removed_same (m next : AddressMap α) (base : Nat) (owner : α) (removed : m.remove base = .ok (owner, next)) :
    next.slots.size = m.slots.size ∧ next.capacity = m.capacity := by
  unfold remove at removed
  split at removed
  · cases removed
  · split at removed
    · split at removed
      · obtain ⟨-, rfl⟩ := Prod.mk.inj (Except.ok.inj removed)
        exact ⟨Array.size_setIfInBounds, rfl⟩
      · cases removed
    · cases removed

theorem performed_widens (m : AddressMap α) (op : Op α) (sound : m.Sound) : m.Widens op (m.perform op).2 := by
  cases op with
  | insert base len owner =>
      cases inserted : m.insert base len owner with
      | ok next =>
          simp only [perform, inserted]
          exact inserted_widens m next base len owner sound inserted
      | error why =>
          simp only [perform, inserted]
          refine ⟨Or.inr ⟨fun outgrows => ?_, rfl⟩, id⟩
          obtain ⟨⟨_, _, _, next, same, accepted⟩, -⟩ := outgrows
          cases same
          rw [inserted] at accepted
          cases accepted
  | remove base =>
      cases removed : m.remove base with
      | ok given =>
          obtain ⟨size, capacity⟩ := removed_same m given.2 base given.1 removed
          simp only [perform, removed]
          exact widens_same m _ _ (by simp) (Nat.le_of_eq size) capacity
      | error why =>
          simp only [perform, removed]
          exact widens_same m _ _ (by simp) (Nat.le_refl _) rfl
  | drain => exact widens_same m _ _ (by simp) (Nat.zero_le _) rfl
  | findOwner address => exact widens_same m _ _ (by simp) (Nat.le_refl _) rfl
  | findEntry address => exact widens_same m _ _ (by simp) (Nat.le_refl _) rfl
  | list => exact widens_same m _ _ (by simp) (Nat.le_refl _) rfl
  | count => exact widens_same m _ _ (by simp) (Nat.le_refl _) rfl

def roomFor (most : Nat) : Nat := max initialSlots (most + max (most / 2) initialSlots)

theorem room_for_mono (a b : Nat) (le : a ≤ b) : roomFor a ≤ roomFor b := by
  rw [roomFor, roomFor]
  omega

theorem outgrown_live (m : AddressMap α) (op : Op α) (sound : m.Sound) (outgrows : m.Outgrows op) :
    m.toList.length = m.capacity := by
  have none := (all_taken_iff m).mp outgrows.2.2
  have full : ¬ m.live < m.slots.size := by
    rw [← vacancy_iff m sound]
    simpa using none
  have most := List.length_filterMap_le Slot.entry? m.slots.toList
  rw [← toList, ← sound.live, Array.length_toList] at most
  rw [← sound.live, ← outgrows.2.1]
  omega

-- The induction is on the operations left; `most` is the largest number of live ranges before them.
theorem capacity_bounded (m : AddressMap α) (ops : List (Op α)) (most : Nat) (sound : m.Sound)
    (fits : m.slots.size ≤ m.capacity) (bounded : m.capacity ≤ roomFor most) :
    (m.performAll ops).2.slots.size ≤ (m.performAll ops).2.capacity ∧
      (m.performAll ops).2.capacity ≤ roomFor (max most (m.peak ops)) := by
  induction ops generalizing m most with
  | nil => exact ⟨fits, Nat.le_trans bounded (room_for_mono _ _ (Nat.le_max_left _ _))⟩
  | cons op ops ih =>
      have widens := performed_widens m op sound
      have nextSound := (perform_answers m op sound).1
      have next : (m.perform op).2.capacity ≤ roomFor (max most m.toList.length) := by
        rcases widens.capacity with ⟨outgrows, grown⟩ | ⟨-, same⟩
        · have live := outgrown_live m op sound outgrows
          rw [grown, roomFor, live]
          omega
        · rw [same]
          exact Nat.le_trans bounded (room_for_mono _ _ (Nat.le_max_left _ _))
      have last := ih (m.perform op).2 _ nextSound (widens.fits fits) next
      rwa [Nat.max_assoc] at last

-- Room grows only when all of it is used by live slots, so that it stays within what the most ranges live at one time ask
-- for.
theorem capacity_within_peak (ops : List (Op α)) :
    let m := (empty.performAll ops).2
    let most := empty.peak ops
    (∀ op, (m.Outgrows op ∧ (m.perform op).2.capacity = m.capacity + max (m.capacity / 2) 8) ∨
      (¬ m.Outgrows op ∧ (m.perform op).2.capacity = m.capacity)) ∧
      m.slots.size ≤ m.capacity ∧ m.capacity ≤ max 8 (most + max (most / 2) 8) := by
  intro m most
  have sound := (perform_all_history (empty : AddressMap α) ops sound_empty).1
  have room : initialSlots ≤ roomFor 0 := by decide
  obtain ⟨fits, bounded⟩ := capacity_bounded (empty : AddressMap α) ops 0 sound_empty (Nat.zero_le _) room
  rw [Nat.zero_max] at bounded
  exact ⟨fun op => (performed_widens m op sound).capacity, fits, bounded⟩

end DemandPaging.AddressMap
