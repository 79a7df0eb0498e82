import DemandPaging.Proofs.RangeSet

set_option autoImplicit false

namespace DemandPaging.AddressMap

variable {α : Type}

def insertionPoint (m : AddressMap α) (base : Nat) : Nat :=
  match m.search base with
  | .hit i => i
  | .miss i => i

-- The map right after a slot for the new range was opened, before vacancies that the range covers are dropped, and the index
-- of that slot.
def opened (m : AddressMap α) (e : Entry α) : AddressMap α × Nat :=
  m.place (m.insertionPoint e.base) (.taken e) (m.opening (m.insertionPoint e.base))

theorem insert_eq_opened (m next : AddressMap α) (base len : Nat) (owner : α)
    (inserted : m.insert base len owner = .ok next) :
    next = { (m.opened ⟨base, len, owner⟩).1 with
      slots := swallow (m.opened ⟨base, len, owner⟩).1.slots (m.opened ⟨base, len, owner⟩).2 (base + len)
      live := m.live + 1 } := by
  unfold insert at inserted
  simp only [opened, insertionPoint]
  split at inserted
  · cases inserted
  · split at inserted
    · cases inserted
    · cases probe : m.search base with
      | hit i =>
          simp only [probe] at inserted ⊢
          split at inserted
          · cases inserted
          · split at inserted
            · cases inserted
            · exact (Except.ok.inj inserted).symm
      | miss i =>
          simp only [probe] at inserted ⊢
          split at inserted
          · cases inserted
          · exact (Except.ok.inj inserted).symm

theorem clear_of_inserted (m next : AddressMap α) (base len : Nat) (owner : α) (sound : m.Sound)
    (inserted : m.insert base len owner = .ok next) :
    ∃ before after, Clear m.slots.toList before after base ∧ m.insertionPoint base = before.length := by
  obtain ⟨e, member, holds, -⟩ | ⟨before, after, clear, missed | ⟨vacated, hit, -⟩⟩ := search_clear m base sound
  · obtain ⟨-, -, -, -, positive, -, free⟩ | ⟨why, refused, -⟩ := insert_cases m base len owner sound
    · exact absurd ⟨Nat.lt_of_le_of_lt holds.1 (Nat.lt_add_of_pos_right (Nat.pos_of_ne_zero positive)), holds.2⟩
        (free e member)
    · rw [refused] at inserted
      cases inserted
  · exact ⟨before, after, clear, by simp only [insertionPoint, missed]⟩
  · exact ⟨before, after, clear, by simp only [insertionPoint, hit]⟩

def Passes (slots : Array (Slot α)) (spare : Bool) (point d k : Nat) : Prop :=
  ∀ j, d ≤ j → j < k → (j ≤ point → vacantAt slots (point - j) = false) ∧ vacantAt slots (point + j) = false ∧
    (spare = true → point + j ≠ slots.size)

def Meets (slots : Array (Slot α)) (spare : Bool) (point k : Nat) : Opening → Prop
  | .here => False
  | .below lo => k ≤ point ∧ lo = point - k ∧ vacantAt slots lo = true
  | .above hi => hi = point + k ∧ vacantAt slots hi = true ∧ (k ≤ point → vacantAt slots (point - k) = false)
  | .fresh => spare = true ∧ point + k = slots.size ∧ (k ≤ point → vacantAt slots (point - k) = false)

-- The induction is on the number of distances left to look at.
theorem nearest_from_meets (slots : Array (Slot α)) (spare : Bool) (point d fuel : Nat) :
    (∃ k, d ≤ k ∧ Passes slots spare point d k ∧ Meets slots spare point k (nearestFrom slots spare point d fuel)) ∨
      (nearestFrom slots spare point d fuel = .fresh ∧ Passes slots spare point d (d + fuel)) := by
  induction fuel generalizing d with
  | zero => exact Or.inr ⟨rfl, fun j low high => absurd low (by omega)⟩
  | succ fuel ih =>
      have nothing : Passes slots spare point d d := fun j low high => absurd low (by omega)
      rw [nearestFrom]
      by_cases below : (decide (d ≤ point) && vacantAt slots (point - d)) = true
      · rw [if_pos below]
        simp only [Bool.and_eq_true, decide_eq_true_eq] at below
        exact Or.inl ⟨d, Nat.le_refl d, nothing, below.1, rfl, below.2⟩
      · rw [if_neg below]
        have notBelow : d ≤ point → vacantAt slots (point - d) = false := by
          intro reach
          simpa only [reach, decide_true, Bool.true_and, Bool.not_eq_true] using below
        by_cases above : vacantAt slots (point + d) = true
        · rw [if_pos above]
          exact Or.inl ⟨d, Nat.le_refl d, nothing, rfl, above, notBelow⟩
        · rw [if_neg above]
          by_cases ended : (spare && point + d == slots.size) = true
          · rw [if_pos ended]
            simp only [Bool.and_eq_true, beq_iff_eq] at ended
            exact Or.inl ⟨d, Nat.le_refl d, nothing, ended.1, ended.2, notBelow⟩
          · rw [if_neg ended]
            have passed : ∀ k, Passes slots spare point (d + 1) k → Passes slots spare point d k := by
              intro k later j low high
              rcases Nat.eq_or_lt_of_le low with same | more
              · subst same
                refine ⟨notBelow, Bool.eq_false_iff.mpr above, fun room there => ended ?_⟩
                simp only [room, there, Bool.true_and, beq_self_eq_true]
              · exact later j more high
            obtain ⟨k, far, passes, meets⟩ | ⟨fresh, passes⟩ := ih (d + 1)
            · exact Or.inl ⟨k, by omega, passed k passes, meets⟩
            · refine Or.inr ⟨fresh, passed _ ?_⟩
              rwa [Nat.add_right_comm] at passes

theorem vacancy_iff (m : AddressMap α) (sound : m.Sound) :
    (∃ i, vacantAt m.slots i = true) ↔ m.live < m.slots.size := by
  rw [sound.live, toList, ← Array.length_toList, List.length_filterMap_lt_length_iff_exists]
  constructor
  · intro given
    obtain ⟨i, vacant⟩ := given
    obtain ⟨base, read⟩ := (vacant_at_iff m.slots i).mp vacant
    exact ⟨_, List.mem_of_getElem? read, rfl⟩
  · intro given
    obtain ⟨slot, member, vacated⟩ := given
    obtain ⟨i, read⟩ := List.mem_iff_getElem?.mp member
    cases slot with
    | vacant base => exact ⟨i, (vacant_at_iff m.slots i).mpr ⟨base, read⟩⟩
    | taken e => cases vacated

theorem vacant_at_inside (slots : Array (Slot α)) (i : Nat) (vacant : vacantAt slots i = true) : i < slots.size := by
  obtain ⟨base, read⟩ := (vacant_at_iff slots i).mp vacant
  exact Array.length_toList ▸ (List.getElem?_eq_some_iff.mp read).1

theorem opening_meets (m : AddressMap α) (point : Nat) (sound : m.Sound) (inside : point ≤ m.slots.size)
    (notHere : vacantAt m.slots point = false) (vacancy : ∃ i, vacantAt m.slots i = true) :
    ∃ k, 1 ≤ k ∧ Passes m.slots (m.slots.size < m.capacity) point 1 k ∧
      Meets m.slots (m.slots.size < m.capacity) point k (m.opening point) := by
  rw [opening]
  rw [if_neg (by rw [notHere]; exact Bool.false_ne_true), if_pos ((vacancy_iff m sound).mp vacancy)]
  obtain ⟨k, far, met⟩ | ⟨-, passes⟩ := nearest_from_meets m.slots (m.slots.size < m.capacity) point 1
    (max point (m.slots.size - point))
  · exact ⟨k, far, met⟩
  · obtain ⟨i, vacant⟩ := vacancy
    have bound := vacant_at_inside m.slots i vacant
    rcases Nat.lt_trichotomy i point with lower | same | higher
    · have seen := (passes (point - i) (by omega) (by omega)).1 (by omega)
      rw [Nat.sub_sub_self (Nat.le_of_lt lower), vacant] at seen
      cases seen
    · rw [← same, vacant] at notHere
      cases notHere
    · have seen := (passes (i - point) (by omega) (by omega)).2.1
      rw [Nat.add_sub_cancel' (Nat.le_of_lt higher), vacant] at seen
      cases seen

def Possible (m : AddressMap α) (point : Nat) : Opening → Prop
  | .here => vacantAt m.slots point = true
  | .below lo => lo < point ∧ vacantAt m.slots lo = true
  | .above hi => point < hi ∧ vacantAt m.slots hi = true
  | .fresh => m.slots.size < m.capacity

def moves (m : AddressMap α) (point : Nat) : Opening → Nat
  | .here => 0
  | .below lo => point - lo - 1
  | .above hi => hi - point
  | .fresh => m.slots.size - point

def distance (m : AddressMap α) (point : Nat) : Opening → Nat
  | .here => 0
  | .below lo => point - lo
  | .above hi => hi - point
  | .fresh => m.slots.size - point

theorem distance_passed (m : AddressMap α) (point k : Nat) (other : Opening)
    (notHere : vacantAt m.slots point = false) (passes : Passes m.slots (m.slots.size < m.capacity) point 1 k)
    (possible : m.Possible point other) (apart : point < m.slots.size ∨ other ≠ .fresh) :
    k ≤ m.distance point other := by
  by_contra nearer
  rw [Nat.not_le] at nearer
  cases other with
  | here =>
      rw [Possible, notHere] at possible
      cases possible
  | below lo =>
      obtain ⟨lower, vacant⟩ := possible
      have seen := (passes (point - lo) (by omega) nearer).1 (Nat.sub_le point lo)
      rw [Nat.sub_sub_self (Nat.le_of_lt lower), vacant] at seen
      cases seen
  | above hi =>
      obtain ⟨higher, vacant⟩ := possible
      have seen := (passes (hi - point) (by omega) nearer).2.1
      rw [Nat.add_sub_cancel' (Nat.le_of_lt higher), vacant] at seen
      cases seen
  | fresh =>
      have early := apart.resolve_right (by simp)
      exact (passes (m.slots.size - point) (by omega) nearer).2.2 (decide_eq_true possible) (by omega)

theorem moves_met (m : AddressMap α) (point k : Nat) (opening other : Opening) (positive : 1 ≤ k)
    (meets : Meets m.slots (m.slots.size < m.capacity) point k opening) (notHere : vacantAt m.slots point = false)
    (possible : m.Possible point other) (far : k ≤ m.distance point other) :
    m.moves point opening ≤ m.moves point other := by
  have notNearer : ∀ lo, (k ≤ point → vacantAt m.slots (point - k) = false) → lo < point → vacantAt m.slots lo = true →
      k ≠ point - lo := by
    intro lo nothing lower vacant same
    have seen := nothing (by omega)
    rw [same, Nat.sub_sub_self (Nat.le_of_lt lower), vacant] at seen
    cases seen
  have least : m.moves point opening + 1 = k ∨
      (m.moves point opening = k ∧ (k ≤ point → vacantAt m.slots (point - k) = false)) := by
    cases opening with
    | here => exact meets.elim
    | below lo =>
        obtain ⟨reach, rfl, -⟩ := meets
        exact Or.inl (by rw [moves]; omega)
    | above hi =>
        obtain ⟨rfl, -, nothing⟩ := meets
        exact Or.inr ⟨by rw [moves]; omega, nothing⟩
    | fresh =>
        obtain ⟨-, ended, nothing⟩ := meets
        exact Or.inr ⟨by rw [moves]; omega, nothing⟩
  cases other with
  | here =>
      rw [Possible, notHere] at possible
      cases possible
  | below lo =>
      rw [distance] at far
      show m.moves point opening ≤ point - lo - 1
      rcases least with less | ⟨equal, nothing⟩
      · omega
      · have := notNearer lo nothing possible.1 possible.2
        omega
  | above hi =>
      rw [distance] at far
      show m.moves point opening ≤ hi - point
      omega
  | fresh =>
      rw [distance] at far
      show m.moves point opening ≤ m.slots.size - point
      omega

theorem possible_of_meets (m : AddressMap α) (point k : Nat) (opening : Opening) (positive : 1 ≤ k)
    (meets : Meets m.slots (m.slots.size < m.capacity) point k opening) : m.Possible point opening := by
  cases opening with
  | here => exact meets.elim
  | below lo =>
      obtain ⟨reach, rfl, vacant⟩ := meets
      exact ⟨by omega, vacant⟩
  | above hi =>
      obtain ⟨rfl, vacant, -⟩ := meets
      exact ⟨by omega, vacant⟩
  | fresh =>
      have spare := of_decide_eq_true meets.1
      exact spare

-- Past the last slot a new slot would move nothing, but the search starts at distance one and does not see the end from there.
theorem opening_least (m : AddressMap α) (point : Nat) (sound : m.Sound) (inside : point ≤ m.slots.size)
    (notHere : vacantAt m.slots point = false) (vacancy : ∃ i, vacantAt m.slots i = true) :
    m.Possible point (m.opening point) ∧ (point = m.slots.size → m.opening point ≠ .fresh) ∧
      ∀ other, m.Possible point other → (point < m.slots.size ∨ other ≠ .fresh) →
        m.moves point (m.opening point) ≤ m.moves point other := by
  obtain ⟨k, positive, passes, meets⟩ := opening_meets m point sound inside notHere vacancy
  refine ⟨possible_of_meets m point k _ positive meets, fun atEnd fresh => ?_, fun other possible apart => ?_⟩
  · rw [fresh] at meets
    obtain ⟨-, ended, -⟩ := meets
    omega
  · exact moves_met m point k _ other positive meets notHere possible
      (distance_passed m point k other notHere passes possible apart)

-- What an opening does to the slots: those between the insertion point and the vacancy given up, or the end, move by one.
inductive Shifts (slot : Slot α) : Opening → List (Slot α) → List (Slot α) → Nat → Prop where
  | below (lower between upper : List (Slot α)) (vacated : Nat) :
      Shifts slot (.below lower.length) (lower ++ .vacant vacated :: (between ++ upper)) (lower ++ (between ++ slot :: upper))
        between.length
  | above (lower between upper : List (Slot α)) (vacated : Nat) :
      Shifts slot (.above (lower.length + between.length)) (lower ++ (between ++ .vacant vacated :: upper))
        (lower ++ slot :: (between ++ upper)) between.length
  | fresh (lower between : List (Slot α)) :
      Shifts slot .fresh (lower ++ between) (lower ++ slot :: between) between.length

theorem list_split_at (slots : List (Slot α)) (i : Nat) (slot : Slot α) (read : slots[i]? = some slot) :
    ∃ lower upper, slots = lower ++ slot :: upper ∧ lower.length = i := by
  obtain ⟨inside, rfl⟩ := List.getElem?_eq_some_iff.mp read
  refine ⟨slots.take i, slots.drop (i + 1), ?_, List.length_take_of_le (Nat.le_of_lt inside)⟩
  rw [← List.drop_eq_getElem_cons inside, List.take_append_drop]

theorem place_shifts (m : AddressMap α) (before after : List (Slot α)) (slot : Slot α) (opening : Opening)
    (split : m.slots.toList = before ++ after) (notHere : opening ≠ .here) (fits : Fits m.slots before.length opening) :
    Shifts slot opening m.slots.toList (m.place before.length slot opening).1.slots.toList
      (m.moves before.length opening) := by
  cases opening with
  | here => exact absurd rfl notHere
  | below lo =>
      obtain ⟨lower, vacant⟩ := fits
      obtain ⟨base, read⟩ := (vacant_at_iff m.slots lo).mp vacant
      rw [split, List.getElem?_append_left lower] at read
      obtain ⟨under, between, rfl, rfl⟩ := list_split_at before lo _ read
      have erased : (m.slots.eraseIdxIfInBounds under.length).toList = (under ++ between) ++ after := by
        rw [Array.toList_eraseIdxIfInBounds, split]
        simp [List.eraseIdx_append_of_length_le]
      have length : (under ++ Slot.vacant base :: between).length - 1 = (under ++ between).length := by simp
      have moved : (under ++ Slot.vacant base :: between).length - under.length - 1 = between.length := by simp
      simp only [place, moves, length, moved]
      rw [to_list_insert_idx _ _ after slot erased, split]
      simp only [List.append_assoc, List.cons_append]
      exact .below under between after base
  | above hi =>
      obtain ⟨higher, vacant⟩ := fits
      obtain ⟨base, read⟩ := (vacant_at_iff m.slots hi).mp vacant
      rw [split, List.getElem?_append_right (Nat.le_of_lt higher)] at read
      obtain ⟨between, upper, rfl, far⟩ := list_split_at after _ _ read
      obtain rfl : hi = before.length + between.length := by omega
      have erased : (m.slots.eraseIdxIfInBounds (before.length + between.length)).toList = before ++ (between ++ upper) := by
        rw [Array.toList_eraseIdxIfInBounds, split]
        simp [List.eraseIdx_append_of_length_le]
      have moved : before.length + between.length - before.length = between.length := by omega
      simp only [place, moves, moved]
      rw [to_list_insert_idx _ before _ slot erased, split]
      exact .above before between upper base
  | fresh =>
      have moved : m.slots.size - before.length = after.length := by
        rw [← Array.length_toList, split, List.length_append]
        omega
      simp only [place, moves, moved]
      rw [to_list_insert_idx _ before after slot split, split]
      exact .fresh before after

-- Whether a slot that stood at an index stands at another one now. A slot is known by its base.
def displaced (kept : List (Slot α)) (placed : Slot α × Nat) : Bool :=
  (kept.findIdx? fun slot => slot.base == placed.1.base).any (· != placed.2)

def relocated (given kept : List (Slot α)) : Nat := given.zipIdx.countP (displaced kept)

def Rising (slots : List (Slot α)) : Prop := slots.Pairwise fun a b => a.base < b.base

theorem find_idx_rising (slots : List (Slot α)) (i : Nat) (slot : Slot α) (rising : Rising slots)
    (read : slots[i]? = some slot) : (slots.findIdx? fun s => s.base == slot.base) = some i := by
  obtain ⟨inside, rfl⟩ := List.getElem?_eq_some_iff.mp read
  rw [List.findIdx?_eq_some_iff_getElem]
  refine ⟨inside, beq_self_eq_true _, fun j earlier same => ?_⟩
  have less := List.pairwise_iff_getElem.mp rising j i (by omega) inside earlier
  rw [eq_of_beq same] at less
  exact Nat.lt_irrefl _ less

theorem displaced_part (kept lower part upper : List (Slot α)) (start : Nat) (rising : Rising kept)
    (split : kept = lower ++ (part ++ upper)) :
    (part.zipIdx start).countP (displaced kept) = if lower.length = start then 0 else part.length := by
  have found : ∀ slot i, (slot, i) ∈ part.zipIdx start →
      (kept.findIdx? fun s => s.base == slot.base) = some (lower.length + (i - start)) ∧ start ≤ i := by
    intro slot i member
    obtain ⟨later, read⟩ := List.mk_mem_zipIdx_iff_le_and_getElem?_sub.mp member
    refine ⟨find_idx_rising kept _ slot rising ?_, later⟩
    obtain ⟨inside, -⟩ := List.getElem?_eq_some_iff.mp read
    rw [split, List.getElem?_append_right (by omega), Nat.add_sub_cancel_left, List.getElem?_append_left inside, read]
  by_cases stays : lower.length = start
  · rw [if_pos stays, List.countP_eq_zero]
    intro placed member
    obtain ⟨index, later⟩ := found placed.1 placed.2 member
    simp only [displaced, index, Option.any_some, bne_iff_ne, ne_eq, Decidable.not_not]
    omega
  · rw [if_neg stays, ← List.length_zipIdx (i := start), List.countP_eq_length]
    intro placed member
    obtain ⟨index, later⟩ := found placed.1 placed.2 member
    simp only [displaced, index, Option.any_some, bne_iff_ne, ne_eq]
    omega

theorem displaced_gone (kept : List (Slot α)) (slot : Slot α) (i : Nat) (gone : ∀ other ∈ kept, other.base ≠ slot.base) :
    displaced kept (slot, i) = false := by
  have absent : (kept.findIdx? fun other => other.base == slot.base) = none := by
    rw [List.findIdx?_eq_none_iff]
    exact fun other there => beq_false_of_ne (gone other there)
  simp only [displaced, absent, Option.any_none]

theorem gone_of_rising (lower upper kept : List (Slot α)) (slot gone : Slot α)
    (rising : Rising (lower ++ gone :: upper)) (new : ∀ s ∈ lower ++ gone :: upper, s.base ≠ slot.base)
    (rest : ∀ other ∈ kept, other ∈ lower ∨ other = slot ∨ other ∈ upper) : ∀ other ∈ kept, other.base ≠ gone.base := by
  rw [Rising, List.pairwise_append, List.pairwise_cons] at rising
  intro other there
  rcases rest other there with earlier | rfl | later
  · exact Nat.ne_of_lt (rising.2.2 other earlier gone List.mem_cons_self)
  · exact (new gone (by simp)).symm
  · exact Nat.ne_of_gt (rising.2.1.1 other later)

theorem relocated_shifts (slot : Slot α) (opening : Opening) (given kept : List (Slot α)) (moved : Nat)
    (shifts : Shifts slot opening given kept moved) (rising : Rising given) (risingKept : Rising kept)
    (new : ∀ s ∈ given, s.base ≠ slot.base) : relocated given kept = moved := by
  cases shifts with
  | below lower between upper vacated =>
      have gone := gone_of_rising lower (between ++ upper) (lower ++ (between ++ slot :: upper)) slot _ rising new
        (by simp; tauto)
      simp only [relocated, List.zipIdx_append, List.zipIdx_cons, List.countP_append, List.countP_cons,
        displaced_gone _ _ _ gone, Bool.false_eq_true, if_false, Nat.add_zero, Nat.zero_add]
      rw [displaced_part _ [] lower _ 0 risingKept rfl, displaced_part _ lower between _ _ risingKept rfl,
        displaced_part _ (lower ++ (between ++ [slot])) upper [] _ risingKept (by simp)]
      simp only [List.length_append, List.length_cons, List.length_nil]
      grind
  | above lower between upper vacated =>
      have gone := gone_of_rising (lower ++ between) upper (lower ++ slot :: (between ++ upper)) slot (.vacant vacated)
        (by simpa using rising) (by simpa using new) (by simp; tauto)
      simp only [relocated, List.zipIdx_append, List.zipIdx_cons, List.countP_append, List.countP_cons,
        displaced_gone _ _ _ gone, Bool.false_eq_true, if_false, Nat.add_zero, Nat.zero_add]
      rw [displaced_part _ [] lower _ 0 risingKept rfl, displaced_part _ (lower ++ [slot]) between upper _ risingKept (by simp),
        displaced_part _ (lower ++ slot :: between) upper [] _ risingKept (by simp)]
      simp only [List.length_append, List.length_cons, List.length_nil]
      grind
  | fresh lower between =>
      simp only [relocated, List.zipIdx_append, List.countP_append]
      rw [displaced_part _ [] lower _ 0 risingKept rfl, displaced_part _ (lower ++ [slot]) between [] _ risingKept (by simp)]
      simp only [List.length_append, List.length_cons, List.length_nil]
      grind

theorem sound_rising (m : AddressMap α) (sound : m.Sound) : Rising m.slots.toList :=
  sound.before.imp fun before => before.1

theorem clear_above (m : AddressMap α) (before after : List (Slot α)) (base len : Nat) (sound : m.Sound)
    (clear : Clear m.slots.toList before after base) (notHere : vacantAt m.slots before.length = false)
    (positive : len ≠ 0) (free : ∀ e ∈ m.toList, ¬ e.Meets base len) : ∀ s ∈ after, base < s.base := by
  cases after with
  | nil => simp
  | cons head tail =>
      have first : base < head.base := by
        refine Nat.lt_of_le_of_ne (clear.above head List.mem_cons_self) fun same => ?_
        cases head with
        | vacant vacated =>
            have vacant := (vacant_at_iff m.slots before.length).mpr ⟨vacated, by simp [clear.split]⟩
            rw [vacant] at notHere
            cases notHere
        | taken e =>
            have member : Slot.taken e ∈ m.slots.toList := by simp [clear.split]
            have proper := (sound.proper _ member e rfl).1
            refine free e ((mem_to_list_iff m e).mpr member) ?_
            rw [Entry.Meets, Entry.stop, show e.base = base from same.symm]
            omega
      have ordered := sound_rising m sound
      rw [Rising, clear.split, List.pairwise_append, List.pairwise_cons] at ordered
      intro s member
      rcases List.mem_cons.mp member with rfl | later
      · exact first
      · exact Nat.lt_trans first (ordered.2.1.1 s later)

theorem placed_rising (given before after lower upper : List (Slot α)) (slot : Slot α) (rising : Rising given)
    (split : given = before ++ after) (thinsLower : Thins lower before) (thinsUpper : Thins upper after)
    (below : ∀ s ∈ before, s.base < slot.base) (above : ∀ s ∈ after, slot.base < s.base) :
    Rising (lower ++ slot :: upper) := by
  rw [Rising, split, List.pairwise_append] at rising
  rw [Rising, List.pairwise_append, List.pairwise_cons]
  refine ⟨rising.1.sublist thinsLower.1, ⟨fun s member => above s (thinsUpper.1.subset member),
    rising.2.1.sublist thinsUpper.1⟩, fun a inLower b member => ?_⟩
  have low := below a (thinsLower.1.subset inLower)
  rcases List.mem_cons.mp member with rfl | inUpper
  · exact low
  · exact Nat.lt_trans low (above b (thinsUpper.1.subset inUpper))

theorem relocated_opened (m next : AddressMap α) (base len : Nat) (owner : α) (sound : m.Sound)
    (inserted : m.insert base len owner = .ok next) (notHere : vacantAt m.slots (m.insertionPoint base) = false) :
    relocated m.slots.toList (m.opened ⟨base, len, owner⟩).1.slots.toList =
      m.moves (m.insertionPoint base) (m.opening (m.insertionPoint base)) := by
  obtain ⟨-, -, -, -, positive, -, free⟩ | ⟨why, refused, -⟩ := insert_cases m base len owner sound
  · obtain ⟨before, after, clear, point⟩ := clear_of_inserted m next base len owner sound inserted
    simp only [opened, point] at notHere ⊢
    have fits := opening_fits m before.length
    have elsewhere : m.opening before.length ≠ .here := by
      intro here
      rw [here, Fits, notHere] at fits
      cases fits
    have rising := sound_rising m sound
    have below : ∀ s ∈ before, s.base < base := fun s member => (clear.below s member).1
    have above := clear_above m before after base len sound clear notHere positive free
    have new : ∀ s ∈ m.slots.toList, s.base ≠ base := by
      rw [clear.split]
      intro s member
      rcases List.mem_append.mp member with early | late
      · exact Nat.ne_of_lt (below s early)
      · exact Nat.ne_of_gt (above s late)
    obtain ⟨lower, upper, slots, -, thinsLower, thinsUpper⟩ :=
      place_splits m before after (.taken ⟨base, len, owner⟩) (m.opening before.length) clear.split fits
    have shifts := place_shifts m before after (.taken ⟨base, len, owner⟩) _ clear.split elsewhere fits
    refine relocated_shifts _ _ _ _ _ shifts rising ?_ new
    rw [slots]
    exact placed_rising _ before after lower upper _ rising clear.split thinsLower thinsUpper below above
  · rw [refused] at inserted
    cases inserted

theorem insertion_point_inside (m next : AddressMap α) (base len : Nat) (owner : α) (sound : m.Sound)
    (inserted : m.insert base len owner = .ok next) : m.insertionPoint base ≤ m.slots.size := by
  obtain ⟨before, after, clear, point⟩ := clear_of_inserted m next base len owner sound inserted
  rw [point, ← Array.length_toList, clear.split, List.length_append]
  exact Nat.le_add_right _ _

theorem opening_full (m : AddressMap α) (point : Nat) (sound : m.Sound)
    (none : ∀ i, vacantAt m.slots i = false) : m.opening point = .fresh := by
  rw [opening]
  rw [if_neg (by rw [none]; exact Bool.false_ne_true), if_neg]
  rw [← vacancy_iff m sound]
  intro vacancy
  obtain ⟨i, vacant⟩ := vacancy
  rw [none] at vacant
  cases vacant

-- One case is left out: past the last slot a vacancy is taken whenever there is one, though a new slot would move nothing.
theorem insert_moves_least (ops : List (Op α)) (base len : Nat) (owner : α) (next : AddressMap α)
    (inserted : (empty.performAll ops).2.insert base len owner = .ok next)
    (notHere : vacantAt (empty.performAll ops).2.slots ((empty.performAll ops).2.insertionPoint base) = false)
    (room : (∃ i, vacantAt (empty.performAll ops).2.slots i = true) ∨
      (empty.performAll ops).2.slots.size < (empty.performAll ops).2.capacity) :
    let m := (empty.performAll ops).2
    let point := m.insertionPoint base
    let opened := m.opened ⟨base, len, owner⟩
    next = { opened.1 with slots := swallow opened.1.slots opened.2 (base + len), live := m.live + 1 } ∧
      point ≤ m.slots.size ∧ m.Possible point (m.opening point) ∧
      relocated m.slots.toList opened.1.slots.toList = m.moves point (m.opening point) ∧
      (∀ other, m.Possible point other → (point < m.slots.size ∨ other ≠ .fresh) →
        relocated m.slots.toList opened.1.slots.toList ≤ m.moves point other) ∧
      (point = m.slots.size → (∃ i, vacantAt m.slots i = true) →
        ∃ lo, m.opening point = .below lo ∧ ∀ i, vacantAt m.slots i = true → i ≤ lo) := by
  intro m point opened
  have sound := (perform_all_history (empty : AddressMap α) ops sound_empty).1
  have inside := insertion_point_inside m next base len owner sound inserted
  have moved := relocated_opened m next base len owner sound inserted notHere
  refine ⟨insert_eq_opened m next base len owner inserted, inside, ?_⟩
  by_cases vacancy : ∃ i, vacantAt m.slots i = true
  · obtain ⟨possible, past, least⟩ := opening_least m point sound inside notHere vacancy
    refine ⟨possible, moved, fun other given apart => ?_, fun atEnd _ => ?_⟩
    · rw [moved]
      exact least other given apart
    · cases chosen : m.opening point with
      | here =>
          rw [chosen, Possible, notHere] at possible
          cases possible
      | below lo =>
          refine ⟨lo, rfl, fun i vacant => ?_⟩
          have bound := vacant_at_inside m.slots i vacant
          have fewer := least (.below i) ⟨by omega, vacant⟩ (Or.inr (by simp))
          rw [chosen] at fewer possible
          have lower := possible.1
          simp only [moves] at fewer
          omega
      | above hi =>
          rw [chosen] at possible
          obtain ⟨higher, vacant⟩ := possible
          have bound := vacant_at_inside m.slots hi vacant
          omega
      | fresh => exact absurd chosen (past atEnd)
  · have full := opening_full m point sound (by simpa using vacancy)
    have spare := room.resolve_left vacancy
    refine ⟨by rw [full]; exact spare, moved, fun other given _ => ?_, fun _ given => absurd given vacancy⟩
    rw [moved, full]
    cases other with
    | here => exact absurd ⟨point, given⟩ vacancy
    | below lo => exact absurd ⟨lo, given.2⟩ vacancy
    | above hi => exact absurd ⟨hi, given.2⟩ vacancy
    | fresh => exact Nat.le_refl _

def vacatedFirst : List (Op Nat) := [.insert 0x1000 0x800 1, .insert 0x2000 0x800 2, .insert 0x3000 0x800 3, .remove 0x1000]

theorem insert_moves_least_between :
    ∃ next, (empty.performAll vacatedFirst).2.insert 0x2800 0x100 4 = .ok next ∧
      vacantAt (empty.performAll vacatedFirst).2.slots ((empty.performAll vacatedFirst).2.insertionPoint 0x2800) = false ∧
      (empty.performAll vacatedFirst).2.slots.size < (empty.performAll vacatedFirst).2.capacity ∧
      relocated (empty.performAll vacatedFirst).2.slots.toList
        ((empty.performAll vacatedFirst).2.opened ⟨0x2800, 0x100, 4⟩).1.slots.toList ≤
          (empty.performAll vacatedFirst).2.moves 2 (.below 0) := by
  have accepted : ((empty.performAll vacatedFirst).2.insert 0x2800 0x100 4).isOk = true := by decide +kernel
  have notHere : vacantAt (empty.performAll vacatedFirst).2.slots
      ((empty.performAll vacatedFirst).2.insertionPoint 0x2800) = false := by decide +kernel
  have spare : (empty.performAll vacatedFirst).2.slots.size < (empty.performAll vacatedFirst).2.capacity := by
    decide +kernel
  have point : (empty.performAll vacatedFirst).2.insertionPoint 0x2800 = 2 := by decide +kernel
  have vacant : vacantAt (empty.performAll vacatedFirst).2.slots 0 = true := by decide +kernel
  cases inserted : (empty.performAll vacatedFirst).2.insert 0x2800 0x100 4 with
  | error why =>
      rw [inserted] at accepted
      cases accepted
  | ok next =>
      obtain ⟨-, -, -, -, least, -⟩ :=
        insert_moves_least vacatedFirst 0x2800 0x100 4 next inserted notHere (Or.inr spare)
      rw [point] at least
      exact ⟨next, rfl, notHere, spare, least (.below 0) ⟨by decide, vacant⟩ (Or.inr (by simp))⟩

-- Past the last slot, with spare room and no vacancy next to it, two slots move where a new slot would move none.
theorem insert_past_end_moves_more :
    let m := (empty.performAll vacatedFirst).2
    (m.insert 0x4000 0x800 4).isOk = true ∧ m.insertionPoint 0x4000 = m.slots.size ∧
      vacantAt m.slots (m.insertionPoint 0x4000) = false ∧ m.slots.size < m.capacity ∧
      m.moves (m.insertionPoint 0x4000) .fresh = 0 ∧
      relocated m.slots.toList (m.opened ⟨0x4000, 0x800, 4⟩).1.slots.toList = 2 := by
  decide +kernel

end DemandPaging.AddressMap
