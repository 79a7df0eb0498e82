import DemandPaging.Proofs.RangeSearch

set_option autoImplicit false

namespace DemandPaging.AddressMap

variable {α : Type}

def Thins (kept given : List (Slot α)) : Prop :=
  kept.Sublist given ∧ kept.filterMap Slot.entry? = given.filterMap Slot.entry?

theorem thins_refl (slots : List (Slot α)) : Thins slots slots := ⟨List.Sublist.refl _, rfl⟩

theorem thins_trans (a b c : List (Slot α)) (first : Thins a b) (second : Thins b c) : Thins a c :=
  ⟨first.1.trans second.1, first.2.trans second.2⟩

theorem thins_vacant (before after : List (Slot α)) (base : Nat) :
    Thins (before ++ after) (before ++ .vacant base :: after) :=
  ⟨(List.sublist_cons_self _ after).append_left before, by
    rw [List.filterMap_append, List.filterMap_append, List.filterMap_cons_none rfl]⟩

theorem vacant_at_iff (slots : Array (Slot α)) (i : Nat) :
    vacantAt slots i = true ↔ ∃ base, slots.toList[i]? = some (.vacant base) := by
  rw [vacantAt]
  rw [← Array.getElem?_toList]
  cases slots.toList[i]? with
  | none => simp
  | some slot => cases slot <;> simp [Slot.isVacant, Slot.entry?]

theorem erase_vacant_thins (slots : List (Slot α)) (i base : Nat) (vacant : slots[i]? = some (.vacant base)) :
    Thins (slots.eraseIdx i) slots := by
  obtain ⟨inside, read⟩ := List.getElem?_eq_some_iff.mp vacant
  have split : slots = slots.take i ++ .vacant base :: slots.drop (i + 1) := by
    rw [← read, ← List.drop_eq_getElem_cons inside, List.take_append_drop]
  rw [List.eraseIdx_eq_take_drop_succ]
  conv => rhs; rw [split]
  exact thins_vacant _ _ _

def Fits (slots : Array (Slot α)) (point : Nat) : Opening → Prop
  | .here => vacantAt slots point = true
  | .below lo => lo < point ∧ vacantAt slots lo = true
  | .above hi => point < hi ∧ vacantAt slots hi = true
  | .fresh => True

theorem nearest_from_fits (slots : Array (Slot α)) (spare : Bool) (point d fuel : Nat) (positive : 0 < d) :
    Fits slots point (nearestFrom slots spare point d fuel) := by
  induction fuel generalizing d with
  | zero => trivial
  | succ fuel ih =>
      rw [nearestFrom]
      by_cases below : (decide (d ≤ point) && vacantAt slots (point - d)) = true
      · rw [if_pos below]
        simp only [Bool.and_eq_true, decide_eq_true_eq] at below
        exact ⟨by omega, below.2⟩
      · rw [if_neg below]
        by_cases above : vacantAt slots (point + d) = true
        · rw [if_pos above]
          exact ⟨by omega, above⟩
        · rw [if_neg above]
          by_cases ended : (spare && point + d == slots.size) = true
          · rw [if_pos ended]
            trivial
          · rw [if_neg ended]
            exact ih (d + 1) (by omega)

theorem opening_fits (m : AddressMap α) (point : Nat) : Fits m.slots point (m.opening point) := by
  rw [opening]
  by_cases vacant : vacantAt m.slots point = true
  · rw [if_pos vacant]
    exact vacant
  · rw [if_neg vacant]
    by_cases hasVacancy : m.live < m.slots.size
    · rw [if_pos hasVacancy]
      exact nearest_from_fits m.slots _ point 1 _ (by omega)
    · rw [if_neg hasVacancy]
      trivial

theorem insert_idx_length_append (before after : List (Slot α)) (slot : Slot α) :
    (before ++ after).insertIdx before.length slot = before ++ slot :: after := by
  induction before with
  | nil => rw [List.nil_append, List.length_nil, List.insertIdx_zero, List.nil_append]
  | cons head tail ih => rw [List.cons_append, List.length_cons, List.insertIdx_succ_cons, ih, List.cons_append]

theorem to_list_insert_idx (slots : Array (Slot α)) (before after : List (Slot α)) (slot : Slot α)
    (split : slots.toList = before ++ after) :
    (slots.insertIdxIfInBounds before.length slot).toList = before ++ slot :: after := by
  obtain ⟨list⟩ := slots
  rw [List.insertIdxIfInBounds_toArray]
  exact (congrArg (fun l => List.insertIdx l before.length slot) split).trans (insert_idx_length_append before after slot)

theorem place_splits (m : AddressMap α) (before after : List (Slot α)) (slot : Slot α) (opening : Opening)
    (split : m.slots.toList = before ++ after) (fits : Fits m.slots before.length opening) :
    ∃ lower upper, (m.place before.length slot opening).1.slots.toList = lower ++ slot :: upper ∧
      (m.place before.length slot opening).2 = lower.length ∧ Thins lower before ∧ Thins upper after := by
  cases opening with
  | here =>
      obtain ⟨base, vacant⟩ := (vacant_at_iff m.slots before.length).mp fits
      cases after with
      | nil => simp [split] at vacant
      | cons head tail =>
          have headVacant : head = .vacant base := by simpa [split] using vacant
          subst headVacant
          exact ⟨before, tail, by simp [place, split], rfl, thins_refl before, thins_vacant [] tail base⟩
  | below lo =>
      obtain ⟨lower, vacant⟩ := fits
      obtain ⟨base, read⟩ := (vacant_at_iff m.slots lo).mp vacant
      have readBefore : before[lo]? = some (.vacant base) := by
        rwa [split, List.getElem?_append_left lower] at read
      have erased : (m.slots.eraseIdxIfInBounds lo).toList = before.eraseIdx lo ++ after := by
        rw [Array.toList_eraseIdxIfInBounds, split, List.eraseIdx_append_of_lt_length lower]
      have length : before.length - 1 = (before.eraseIdx lo).length := by
        rw [List.length_eraseIdx_of_lt lower]
      refine ⟨before.eraseIdx lo, after, ?_, length, erase_vacant_thins before lo base readBefore, thins_refl after⟩
      simp only [place, length]
      exact to_list_insert_idx _ _ after slot erased
  | above hi =>
      obtain ⟨higher, vacant⟩ := fits
      obtain ⟨base, read⟩ := (vacant_at_iff m.slots hi).mp vacant
      have readAfter : after[hi - before.length]? = some (.vacant base) := by
        rwa [split, List.getElem?_append_right (Nat.le_of_lt higher)] at read
      have erased : (m.slots.eraseIdxIfInBounds hi).toList = before ++ after.eraseIdx (hi - before.length) := by
        rw [Array.toList_eraseIdxIfInBounds, split, List.eraseIdx_append_of_length_le (Nat.le_of_lt higher)]
      exact ⟨before, after.eraseIdx (hi - before.length), to_list_insert_idx _ before _ slot erased, rfl,
        thins_refl before, erase_vacant_thins after _ base readAfter⟩
  | fresh =>
      exact ⟨before, after, to_list_insert_idx m.slots before after slot split, rfl, thins_refl before, thins_refl after⟩

theorem drop_while_thins (slots : List (Slot α)) (stop : Nat) :
    Thins (slots.dropWhile fun s => s.isVacant && s.base < stop) slots := by
  induction slots with
  | nil => exact thins_refl []
  | cons head tail ih =>
      rw [List.dropWhile_cons]
      by_cases drops : (head.isVacant && decide (head.base < stop)) = true
      · rw [if_pos drops]
        cases head with
        | vacant base => exact thins_trans _ _ _ ih (thins_vacant [] tail base)
        | taken e => simp [Slot.isVacant, Slot.entry?] at drops
      · rw [if_neg drops]
        exact thins_refl _

theorem to_list_swallow (slots : Array (Slot α)) (lower upper : List (Slot α)) (slot : Slot α) (stop : Nat)
    (split : slots.toList = lower ++ slot :: upper) :
    (swallow slots lower.length stop).toList =
      lower ++ slot :: upper.dropWhile fun s => s.isVacant && s.base < stop := by
  have before : (lower ++ slot :: upper).take (lower.length + 1) = lower ++ [slot] := by
    rw [List.take_length_add_append, List.take_succ_cons, List.take_zero]
  have after : (lower ++ slot :: upper).drop (lower.length + 1) = upper := by
    rw [List.drop_length_add_append, List.drop_succ_cons, List.drop_zero]
  simp only [swallow, split, before, after, List.append_assoc, List.singleton_append]

theorem drop_while_above (slots : List (Slot α)) (stop : Nat) (ordered : slots.Pairwise Slot.Before)
    (clear : ∀ e, Slot.taken e ∈ slots → stop ≤ e.base) :
    ∀ s ∈ slots.dropWhile fun s => s.isVacant && s.base < stop, stop ≤ s.base := by
  induction slots with
  | nil => simp
  | cons head tail ih =>
      rw [List.pairwise_cons] at ordered
      rw [List.dropWhile_cons]
      by_cases drops : (head.isVacant && decide (head.base < stop)) = true
      · rw [if_pos drops]
        exact ih ordered.2 fun e member => clear e (List.mem_cons_of_mem _ member)
      · rw [if_neg drops]
        have first : stop ≤ head.base := by
          cases head with
          | vacant base => simpa [Slot.isVacant, Slot.entry?] using drops
          | taken e => exact clear e List.mem_cons_self
        intro s member
        rcases List.mem_cons.mp member with rfl | later
        · exact first
        · have := (ordered.1 s later).1
          omega

-- Where a new range may go: the slots before end at or below its base, those after begin at or above it.
structure Clear (slots before after : List (Slot α)) (base : Nat) : Prop where
  split : slots = before ++ after
  below : ∀ s ∈ before, s.base < base ∧ ∀ e, s.entry? = some e → e.stop ≤ base
  above : ∀ s ∈ after, base ≤ s.base

theorem search_clear (m : AddressMap α) (base : Nat) (sound : m.Sound) :
    (∃ e ∈ m.toList, e.Holds base ∧ ∃ i, m.search base = .hit i ∧ m.slots[i]? = some (.taken e)) ∨
      ∃ before after, Clear m.slots.toList before after base ∧
        (m.search base = .miss before.length ∨
          ∃ vacated, m.search base = .hit before.length ∧ m.slots[before.length]? = some (.vacant vacated)) := by
  have splits := search_splits m base sound
  have below : ∀ before : List (Slot α), (∀ s ∈ before, s ∈ m.slots.toList) → (∀ s ∈ before, s.locate base = .gt) →
      ∀ s ∈ before, s.base < base ∧ ∀ e, s.entry? = some e → e.stop ≤ base := fun before part gt s member =>
    (Slot.locate_gt_iff s base (sound.proper s (part s member))).mp (gt s member)
  cases probe : m.search base with
  | miss i =>
      rw [probe] at splits
      obtain ⟨before, after, split, rfl, gt, lt⟩ := splits
      refine Or.inr ⟨before, after, ⟨split, below before (by simp +contextual [split]) gt, fun s member => ?_⟩, Or.inl rfl⟩
      have := (Slot.locate_lt_iff s base).mp (lt s member)
      omega
  | hit i =>
      rw [probe] at splits
      obtain ⟨before, slot, after, split, rfl, equal, gt, lt⟩ := splits
      have read := getElem_of_split m.slots before slot after split
      cases slot with
      | taken e =>
          have member : e ∈ m.toList := by
            rw [mem_to_list_iff, split]
            simp
          exact Or.inl ⟨e, member, (Slot.locate_eq_taken_iff e base).mp equal, _, rfl, read⟩
      | vacant vacated =>
          rw [Slot.locate_eq_vacant_iff] at equal
          subst equal
          refine Or.inr ⟨before, .vacant base :: after,
            ⟨split, below before (by simp +contextual [split]) gt, fun s member => ?_⟩, Or.inr ⟨base, rfl, read⟩⟩
          rcases List.mem_cons.mp member with rfl | later
          · exact Nat.le_refl _
          · have := (Slot.locate_lt_iff s base).mp (lt s later)
            omega

theorem reaches_next_iff (slots : Array (Slot α)) (before after : List (Slot α)) (base len : Nat)
    (clear : Clear slots.toList before after base) (ordered : slots.toList.Pairwise Slot.Before)
    (proper : ∀ s ∈ slots.toList, s.Proper) :
    reachesNext slots before.length (base + len) = true ↔
      ∃ e, Slot.taken e ∈ slots.toList ∧ e.Meets base len := by
  have afterOrdered : after.Pairwise Slot.Before := by
    rw [clear.split, List.pairwise_append] at ordered
    exact ordered.2.1
  have dropped : slots.toList.drop before.length = after := by
    rw [clear.split, List.drop_left]
  simp only [reachesNext, dropped, Option.any_eq_true, decide_eq_true_eq]
  constructor
  · intro given
    obtain ⟨first, found, low⟩ := given
    have member := List.mem_of_find?_eq_some found
    have inSlots : first ∈ slots.toList := by
      rw [clear.split]
      exact List.mem_append_right before member
    cases first with
    | vacant vacated => simpa [Slot.isTaken, Slot.entry?] using List.find?_some found
    | taken e =>
        refine ⟨e, inSlots, low, ?_⟩
        have positive := (proper _ inSlots e rfl).1
        have above : base ≤ e.base := clear.above _ member
        rw [Entry.stop]
        omega
  · intro given
    obtain ⟨e, member, starts, ends⟩ := given
    rw [clear.split, List.mem_append] at member
    rcases member with early | late
    · have := (clear.below _ early).2 e rfl
      omega
    · cases found : after.find? Slot.isTaken with
      | none =>
          have := List.find?_eq_none.mp found _ late
          simp [Slot.isTaken, Slot.entry?] at this
      | some first =>
          refine ⟨first, rfl, ?_⟩
          obtain ⟨-, initial, rest, split, vacant⟩ := List.find?_eq_some_iff_append.mp found
          rw [split, List.mem_append, List.mem_cons] at late
          rcases late with skipped | same | later
          · have := vacant _ skipped
            simp [Slot.isTaken, Slot.entry?] at this
          · rw [← same]
            exact starts
          · rw [split, List.pairwise_append, List.pairwise_cons] at afterOrdered
            exact Nat.lt_trans (afterOrdered.2.1.1 _ later).1 starts

theorem placed_sound (m next : AddressMap α) (before after lower upper : List (Slot α)) (e : Entry α)
    (sound : m.Sound) (clear : Clear m.slots.toList before after e.base) (proper : (Slot.taken e).Proper)
    (thinsLower : Thins lower before) (thinsUpper : Thins upper after) (above : ∀ s ∈ upper, e.stop ≤ s.base)
    (slots : next.slots.toList = lower ++ .taken e :: upper) (live : next.live = m.live + 1) : next.Sound where
  before := by
    have ordered := sound.before
    have positive := (proper e rfl).1
    rw [clear.split, List.pairwise_append] at ordered
    rw [slots, List.pairwise_append, List.pairwise_cons]
    refine ⟨ordered.1.sublist thinsLower.1, ⟨fun s member => ?_, ordered.2.1.sublist thinsUpper.1⟩,
      fun a inLower b member => ?_⟩
    · have high := above s member
      refine ⟨?_, fun other same => ?_⟩
      · show e.base < s.base
        rw [Entry.stop] at high
        omega
      · obtain rfl := Option.some.inj same
        exact high
    · rcases List.mem_cons.mp member with rfl | inUpper
      · exact clear.below a (thinsLower.1.subset inLower)
      · exact ordered.2.2 a (thinsLower.1.subset inLower) b (thinsUpper.1.subset inUpper)
  proper := by
    have given : ∀ s, s ∈ before ∨ s ∈ after → s.Proper := by
      intro s member
      apply sound.proper s
      rw [clear.split]
      exact List.mem_append.mpr member
    intro s member
    rw [slots, List.mem_append, List.mem_cons] at member
    rcases member with inLower | rfl | inUpper
    · exact given s (Or.inl (thinsLower.1.subset inLower))
    · exact proper
    · exact given s (Or.inr (thinsUpper.1.subset inUpper))
  live := by
    have counted := sound.live
    simp only [toList, clear.split, List.filterMap_append, List.length_append] at counted
    simp only [live, toList, slots, List.filterMap_append, List.filterMap_cons, Slot.entry?, thinsLower.2, thinsUpper.2,
      List.length_append, List.length_cons]
    omega

theorem to_list_placed (m next : AddressMap α) (before after lower upper : List (Slot α)) (e : Entry α)
    (split : m.slots.toList = before ++ after) (thinsLower : Thins lower before) (thinsUpper : Thins upper after)
    (slots : next.slots.toList = lower ++ .taken e :: upper) : next.toList.Perm (e :: m.toList) := by
  simp only [toList, slots, split, List.filterMap_append, List.filterMap_cons, Slot.entry?, thinsLower.2, thinsUpper.2]
  exact List.perm_middle

theorem insert_at_clear (m : AddressMap α) (before after : List (Slot α)) (e : Entry α) (sound : m.Sound)
    (clear : Clear m.slots.toList before after e.base) (proper : (Slot.taken e).Proper)
    (free : ∀ other ∈ m.toList, ¬ other.Meets e.base e.len) :
    let placed := m.place before.length (.taken e) (m.opening before.length)
    let next : AddressMap α := { placed.1 with slots := swallow placed.1.slots placed.2 e.stop, live := m.live + 1 }
    next.Sound ∧ next.toList.Perm (e :: m.toList) := by
  intro placed next
  have afterOrdered : after.Pairwise Slot.Before := by
    have ordered := sound.before
    rw [clear.split, List.pairwise_append] at ordered
    exact ordered.2.1
  obtain ⟨lower, upper, slots, index, thinsLower, thinsUpper⟩ :=
    place_splits m before after (.taken e) (m.opening before.length) clear.split (opening_fits m before.length)
  have nextSlots : next.slots.toList =
      lower ++ .taken e :: upper.dropWhile fun s => s.isVacant && s.base < e.stop := by
    have swallowed := to_list_swallow placed.1.slots lower upper (.taken e) e.stop slots
    rwa [← index] at swallowed
  have liveAbove : ∀ other, Slot.taken other ∈ upper → e.stop ≤ other.base := by
    intro other member
    have inSlots : Slot.taken other ∈ m.slots.toList := by
      rw [clear.split]
      exact List.mem_append_right before (thinsUpper.1.subset member)
    have apart := free other ((mem_to_list_iff m other).mpr inSlots)
    have positive := (sound.proper _ inSlots other rfl).1
    have starts : e.base ≤ other.base := clear.above _ (thinsUpper.1.subset member)
    unfold Entry.Meets Entry.stop at apart
    rw [Entry.stop]
    omega
  have thinner := thins_trans _ _ _ (drop_while_thins upper e.stop) thinsUpper
  refine ⟨?_, to_list_placed m next before after lower _ e clear.split thinsLower thinner nextSlots⟩
  exact placed_sound m next before after lower _ e sound clear proper thinsLower thinner
    (drop_while_above upper e.stop (afterOrdered.sublist thinsUpper.1) liveAbove) nextSlots rfl

theorem insert_free (m : AddressMap α) (base len : Nat) (owner : α) (sound : m.Sound) (positive : len ≠ 0)
    (fits : base + len < Word.limit) (free : ∀ e ∈ m.toList, ¬ e.Meets base len) :
    ∃ next, m.insert base len owner = .ok next ∧ next.Sound ∧ next.toList.Perm (⟨base, len, owner⟩ :: m.toList) := by
  have proper : (Slot.taken ⟨base, len, owner⟩).Proper := by
    intro e same
    obtain rfl := Option.some.inj same
    exact ⟨Nat.pos_of_ne_zero positive, fits⟩
  rw [insert]
  rw [if_neg positive, if_neg (Nat.not_le.mpr fits)]
  obtain ⟨e, member, holds, -⟩ | ⟨before, after, clear, point⟩ := search_clear m base sound
  · exact absurd ⟨by unfold Entry.Holds at holds; omega, holds.2⟩ (free e member)
  · have unreached : reachesNext m.slots before.length (base + len) = false := by
      rw [Bool.eq_false_iff, Ne, reaches_next_iff m.slots before after base len clear sound.before sound.proper]
      intro given
      obtain ⟨e, member, meets⟩ := given
      exact free e ((mem_to_list_iff m e).mpr member) meets
    have inserted := insert_at_clear m before after ⟨base, len, owner⟩ sound clear proper free
    rcases point with missed | ⟨vacated, hit, read⟩
    · simp only [missed, unreached, Bool.false_eq_true, if_false]
      exact ⟨_, rfl, inserted⟩
    · simp only [hit, read, Option.any_some, Slot.isTaken, Slot.entry?, Option.isSome_none, unreached,
        Bool.false_eq_true, if_false]
      exact ⟨_, rfl, inserted⟩

theorem insert_overlapping (m : AddressMap α) (base len : Nat) (owner : α) (sound : m.Sound) (positive : len ≠ 0)
    (overlaps : Word.limit ≤ base + len ∨ ∃ e ∈ m.toList, e.Meets base len) :
    m.insert base len owner = .error .overlap := by
  rw [insert]
  rw [if_neg positive]
  by_cases passes : Word.limit ≤ base + len
  · rw [if_pos passes]
  · obtain ⟨e, member, meets⟩ := overlaps.resolve_left passes
    rw [if_neg passes]
    obtain ⟨other, -, -, i, hit, read⟩ | ⟨before, after, clear, point⟩ := search_clear m base sound
    · simp only [hit, read, Option.any_some, Slot.isTaken, Slot.entry?, Option.isSome_some, if_true]
    · have reached : reachesNext m.slots before.length (base + len) = true :=
        (reaches_next_iff m.slots before after base len clear sound.before sound.proper).mpr
          ⟨e, (mem_to_list_iff m e).mp member, meets⟩
      rcases point with missed | ⟨vacated, hit, read⟩
      · simp only [missed, reached, if_true]
      · simp only [hit, read, Option.any_some, Slot.isTaken, Slot.entry?, Option.isSome_none, reached,
          Bool.false_eq_true, if_false, if_true]

theorem insert_empty (m : AddressMap α) (base : Nat) (owner : α) : m.insert base 0 owner = .error .emptyRange := by
  rw [insert]
  rw [if_pos rfl]

theorem insert_cases (m : AddressMap α) (base len : Nat) (owner : α) (sound : m.Sound) :
    (∃ next, m.insert base len owner = .ok next ∧ next.Sound ∧ next.toList.Perm (⟨base, len, owner⟩ :: m.toList) ∧
      len ≠ 0 ∧ base + len < Word.limit ∧ ∀ e ∈ m.toList, ¬ e.Meets base len) ∨
    ∃ why, m.insert base len owner = .error why ∧
      ¬ (len ≠ 0 ∧ base + len < Word.limit ∧ ∀ e ∈ m.toList, ¬ e.Meets base len) := by
  by_cases empty : len = 0
  · subst empty
    exact Or.inr ⟨_, insert_empty m base owner, fun free => free.1 rfl⟩
  · by_cases free : base + len < Word.limit ∧ ∀ e ∈ m.toList, ¬ e.Meets base len
    · obtain ⟨next, inserted, nextSound, perm⟩ := insert_free m base len owner sound empty free.1 free.2
      exact Or.inl ⟨next, inserted, nextSound, perm, empty, free.1, free.2⟩
    · have overlaps : Word.limit ≤ base + len ∨ ∃ e ∈ m.toList, e.Meets base len := by
        by_contra none
        simp only [not_or, not_exists, not_and, Nat.not_le] at none
        exact free none
      exact Or.inr ⟨_, insert_overlapping m base len owner sound empty overlaps, fun all => free all.2⟩

theorem vacated_sound (m : AddressMap α) (before after : List (Slot α)) (e : Entry α) (sound : m.Sound)
    (split : m.slots.toList = before ++ .taken e :: after) :
    let next : AddressMap α :=
      { m with slots := m.slots.setIfInBounds before.length (.vacant e.base), live := m.live - 1 }
    next.Sound ∧ m.toList.Perm (e :: next.toList) := by
  intro next
  have nextSlots : next.slots.toList = before ++ .vacant e.base :: after := by
    simp [next, split]
  have perm : m.toList.Perm (e :: next.toList) := by
    simp only [toList, nextSlots, split, List.filterMap_append, List.filterMap_cons, Slot.entry?]
    exact List.perm_middle
  refine ⟨⟨?_, ?_, ?_⟩, perm⟩
  · have ordered := sound.before
    rw [split, List.pairwise_append, List.pairwise_cons] at ordered
    rw [nextSlots, List.pairwise_append, List.pairwise_cons]
    refine ⟨ordered.1, ⟨fun s member => ⟨(ordered.2.1.1 s member).1, by simp [ Slot.entry?]⟩, ordered.2.1.2⟩,
      fun a inBefore b member => ?_⟩
    rcases List.mem_cons.mp member with rfl | inAfter
    · exact ordered.2.2 a inBefore (.taken e) List.mem_cons_self
    · exact ordered.2.2 a inBefore b (List.mem_cons_of_mem _ inAfter)
  · intro s member
    rw [nextSlots, List.mem_append, List.mem_cons] at member
    rcases member with inBefore | rfl | inAfter
    · exact sound.proper s (by simp [split, inBefore])
    · intro other impossible
      cases impossible
    · exact sound.proper s (by simp [split, inAfter])
  · show m.live - 1 = next.toList.length
    rw [sound.live, perm.length_eq, List.length_cons, Nat.add_sub_cancel]

theorem remove_live (m : AddressMap α) (e : Entry α) (sound : m.Sound) (member : e ∈ m.toList) :
    ∃ next, m.remove e.base = .ok (e.owner, next) ∧ next.Sound ∧ m.toList.Perm (e :: next.toList) := by
  have inSlots := (mem_to_list_iff m e).mp member
  have positive := (sound.proper _ inSlots e rfl).1
  have holds : e.Holds e.base := ⟨Nat.le_refl _, by unfold Entry.stop; omega⟩
  have equal : (Slot.taken e).locate e.base = .eq := (Slot.locate_eq_taken_iff e e.base).mpr holds
  have splits := search_splits m e.base sound
  rw [remove]
  cases probe : m.search e.base with
  | miss i =>
      rw [probe] at splits
      obtain ⟨before, after, split, rfl, gt, lt⟩ := splits
      rw [split, List.mem_append] at inSlots
      rcases inSlots with early | late
      · rw [gt _ early] at equal
        cases equal
      · rw [lt _ late] at equal
        cases equal
  | hit i =>
      rw [probe] at splits
      obtain ⟨before, slot, after, split, rfl, -, gt, lt⟩ := splits
      have same : slot = .taken e := by
        rw [split, List.mem_append, List.mem_cons] at inSlots
        rcases inSlots with early | here | late
        · rw [gt _ early] at equal
          cases equal
        · exact here.symm
        · rw [lt _ late] at equal
          cases equal
      subst same
      obtain ⟨nextSound, perm⟩ := vacated_sound m before after e sound split
      simp only [getElem_of_split m.slots before _ after split, if_true]
      exact ⟨_, rfl, nextSound, perm⟩

theorem remove_missing (m : AddressMap α) (base : Nat) (absent : ∀ e ∈ m.toList, e.base ≠ base) :
    m.remove base = .error .missing := by
  rw [remove]
  cases m.search base with
  | miss i => rfl
  | hit i =>
      cases read : m.slots[i]? with
      | none => simp only [read]
      | some slot =>
          cases slot with
          | vacant vacated => simp only [read]
          | taken e =>
              have member : e ∈ m.toList := by
                rw [mem_to_list_iff, Array.mem_toList_iff]
                exact Array.mem_of_getElem? read
              simp only [read, if_neg (absent e member)]

end DemandPaging.AddressMap
