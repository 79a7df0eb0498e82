import Mathlib.Data.List.Basic
import DemandPaging.CircularQueue

set_option autoImplicit false

namespace DemandPaging.CircularQueue

variable {α : Type}

theorem wrap_once (a n : Nat) (bound : a < 2 * n) : a % n = if a < n then a else a - n := by
  by_cases inside : a < n
  · rw [if_pos inside, Nat.mod_eq_of_lt inside]
  · rw [if_neg inside, Nat.mod_eq_sub_mod (by omega), Nat.mod_eq_of_lt (by omega)]

theorem slot_eq (q : CircularQueue α) (i : Nat) (wf : q.WellFormed) (bound : i ≤ q.buf.size) :
    q.slot i = if q.tail + i < q.buf.size then q.tail + i else q.tail + i - q.buf.size := by
  have := wf.tail_lt
  exact wrap_once _ _ (by omega)

theorem slot_lt (q : CircularQueue α) (i : Nat) (wf : q.WellFormed) : q.slot i < q.buf.size :=
  Nat.mod_lt _ wf.capacity_pos

theorem slot_inj (q : CircularQueue α) (i j : Nat) (wf : q.WellFormed) (left : i < q.buf.size) (right : j < q.buf.size)
    (same : q.slot i = q.slot j) : i = j := by
  have := wf.tail_lt
  rw [slot_eq q i wf (Nat.le_of_lt left), slot_eq q j wf (Nat.le_of_lt right)] at same
  split at same <;> split at same <;> omega

theorem head_eq_slot (q : CircularQueue α) (wf : q.WellFormed) : q.head = q.slot q.len := wf.head_eq

theorem well_formed_mk (buf : Array α) (head tail len : Nat) (positive : 0 < buf.size) (tailInside : tail < buf.size)
    (bound : len ≤ buf.size) (cursor : head = (tail + len) % buf.size) : WellFormed ⟨buf, head, tail, len⟩ :=
  ⟨positive, tailInside, bound, cursor⟩

theorem well_formed_append (q : CircularQueue α) (record : α) (wf : q.WellFormed) (room : q.len < q.buf.size) :
    (q.append record).WellFormed where
  capacity_pos := by simpa [append] using wf.capacity_pos
  tail_lt := by simpa [append] using wf.tail_lt
  len_le := by
    simp only [append, Array.size_setIfInBounds]
    omega
  head_eq := by
    simp only [append, Array.size_setIfInBounds]
    rw [wf.head_eq, Nat.mod_add_mod, Nat.add_assoc]

variable [Inhabited α]

theorem length_to_list (q : CircularQueue α) : q.toList.length = q.len := by
  rw [toList, List.length_map, List.length_range]

theorem getElem_to_list (q : CircularQueue α) (i : Nat) (inside : i < q.len) :
    q.toList[i]? = some (q.buf.getD (q.slot i) default) := by
  rw [toList, List.getElem?_map, List.getElem?_range inside, Option.map_some]

theorem to_list_ext (q : CircularQueue α) (records : List α) (length : q.len = records.length)
    (same : ∀ i, i < q.len → some (q.buf.getD (q.slot i) default) = records[i]?) : q.toList = records := by
  apply List.ext_getElem?
  intro i
  by_cases inside : i < q.len
  · rw [getElem_to_list q i inside, same i inside]
  · have outside : q.toList.length ≤ i := by rw [length_to_list]; omega
    rw [List.getElem?_eq_none outside, List.getElem?_eq_none (by omega)]

theorem well_formed_with_capacity (capacity : Nat) : (withCapacity capacity : CircularQueue α).WellFormed where
  capacity_pos := by simp only [withCapacity, Array.size_replicate]; omega
  tail_lt := by simp only [withCapacity, Array.size_replicate]; omega
  len_le := Nat.zero_le _
  head_eq := (Nat.zero_mod _).symm

theorem to_list_with_capacity (capacity : Nat) : (withCapacity capacity : CircularQueue α).toList = [] := rfl

theorem getD_set (buf : Array α) (i j : Nat) (a : α) (inside : i < buf.size) :
    (buf.setIfInBounds i a).getD j default = if j = i then a else buf.getD j default := by
  simp only [Array.getD_eq_getD_getElem?, Array.getElem?_setIfInBounds]
  by_cases same : i = j
  · subst same
    simp [inside]
  · simp [same, Ne.symm same]

theorem to_list_append (q : CircularQueue α) (record : α) (wf : q.WellFormed) (room : q.len < q.buf.size) :
    (q.append record).toList = q.toList ++ [record] := by
  have headInside : q.head < q.buf.size := by
    rw [head_eq_slot q wf]
    exact slot_lt q q.len wf
  apply to_list_ext
  · simp [append, length_to_list]
  · intro i inside
    have bound : i < q.len + 1 := inside
    have sameSlot : (q.append record).slot i = q.slot i := by
      simp only [slot, append, Array.size_setIfInBounds]
    rw [sameSlot]
    simp only [append, getD_set _ _ _ _ headInside]
    by_cases last : i = q.len
    · subst last
      rw [if_pos (head_eq_slot q wf).symm, List.getElem?_append_right (Nat.le_of_eq (length_to_list q)), length_to_list,
        Nat.sub_self, List.getElem?_cons_zero]
    · have earlier : i < q.len := by omega
      have different : q.slot i ≠ q.head := by
        intro same
        rw [head_eq_slot q wf] at same
        exact last (slot_inj q i q.len wf (by omega) room same)
      rw [if_neg different, List.getElem?_append_left (by rw [length_to_list]; exact earlier),
        getElem_to_list q i earlier]

-- What copying the first `count` slots behind the old end achieves. A destination that wraps lies below its source, so
-- that the sources still to be copied are untouched.
structure Relocated (buf moved : Array α) (old count : Nat) : Prop where
  size : moved.size = buf.size
  copied : ∀ i, i < count → moved.getD ((old + i) % buf.size) default = buf.getD i default
  kept : ∀ k, count ≤ k → k < old → moved.getD k default = buf.getD k default

theorem relocate_relocated (buf : Array α) (old count : Nat) (grown : old < buf.size) (bound : count ≤ old) :
    Relocated buf (relocate buf old count) old count := by
  induction count with
  | zero => exact ⟨rfl, fun _ impossible => absurd impossible (Nat.not_lt_zero _), fun _ _ _ => rfl⟩
  | succ count ih =>
      obtain ⟨size, copied, kept⟩ := ih (by omega)
      have target : (old + count) % buf.size < buf.size := Nat.mod_lt _ (by omega)
      have wrapped := wrap_once (old + count) buf.size (by omega)
      have written : ∀ k, (relocate buf old (count + 1)).getD k default =
          if k = (old + count) % buf.size then buf.getD count default
          else (relocate buf old count).getD k default := by
        intro k
        have read : (relocate buf old count).getD count default = buf.getD count default :=
          kept count (Nat.le_refl _) (by omega)
        rw [relocate, getD_set _ _ _ _ (by rw [size]; exact target), size, read]
      refine ⟨?_, fun i earlier => ?_, fun k later inside => ?_⟩
      · rw [relocate]
        simp [size]
      · rw [written]
        by_cases last : i = count
        · subst last
          rw [if_pos rfl]
        · have different : (old + i) % buf.size ≠ (old + count) % buf.size := by
            rw [wrap_once (old + i) buf.size (by omega), wrapped]
            split <;> split <;> omega
          rw [if_neg different]
          exact copied i (by omega)
      · have different : k ≠ (old + count) % buf.size := by
          rw [wrapped]
          split <;> omega
        rw [written, if_neg different]
        exact kept k (by omega) inside

theorem getD_append_replicate (buf : Array α) (more i : Nat) :
    (buf ++ Array.replicate more default).getD i default = buf.getD i default := by
  simp only [Array.getD_eq_getD_getElem?, Array.getElem?_append, Array.getElem?_replicate]
  by_cases inside : i < buf.size
  · simp [inside]
  · by_cases fresh : i - buf.size < more <;> simp [inside, fresh]

theorem resize_grows (q : CircularQueue α) (wanted : Nat) (wf : q.WellFormed) (more : q.buf.size < wanted) :
    ∃ next, q.resize wanted = .ok next ∧ next.WellFormed ∧ next.toList = q.toList ∧ next.buf.size = wanted ∧
      next.len = q.len := by
  have tailInside := wf.tail_lt
  have lenBound := wf.len_le
  have headEq := wf.head_eq
  rw [wrap_once (q.tail + q.len) q.buf.size (by omega)] at headEq
  have grownSize : (q.buf ++ Array.replicate (wanted - q.buf.size) (default : α)).size = wanted := by
    rw [Array.size_append, Array.size_replicate]
    omega
  have grownSame := getD_append_replicate q.buf (wanted - q.buf.size)
  rw [resize]
  simp only [Nat.not_lt.mpr (Nat.le_of_lt more), if_false, Nat.ne_of_gt more]
  generalize q.buf ++ Array.replicate (wanted - q.buf.size) default = grown at grownSize grownSame
  by_cases empty : q.len = 0
  · rw [if_pos empty]
    refine ⟨_, rfl, well_formed_mk grown 0 0 q.len (by omega) (by omega) (by omega) ?_, ?_, grownSize, rfl⟩
    · rw [empty, Nat.zero_add, Nat.zero_mod]
    · simp only [toList, empty, List.range_zero, List.map_nil]
  · rw [if_neg empty]
    by_cases wraps : q.head ≤ q.tail
    · rw [if_pos wraps]
      have prefixed : q.head = q.tail + q.len - q.buf.size ∧ q.buf.size ≤ q.tail + q.len := by
        split at headEq <;> omega
      obtain ⟨movedSize, copied, kept⟩ := relocate_relocated grown q.buf.size q.head (by omega) (by omega)
      rw [grownSize] at movedSize copied
      refine ⟨_, rfl, well_formed_mk _ _ q.tail q.len (by omega) (by omega) (by omega) ?_, ?_, movedSize, rfl⟩
      · rw [movedSize, prefixed.1, Nat.add_sub_cancel' prefixed.2]
      · apply to_list_ext
        · exact (length_to_list q).symm
        · intro i inside
          have bound : i < q.len := inside
          rw [getElem_to_list q i bound, slot_eq q i wf (by omega)]
          simp only [slot, movedSize]
          by_cases unwrapped : q.tail + i < q.buf.size
          · rw [if_pos unwrapped, Nat.mod_eq_of_lt (by omega), kept _ (by omega) unwrapped, grownSame]
          · have source : q.buf.size + (q.tail + i - q.buf.size) = q.tail + i := by omega
            have moved := copied (q.tail + i - q.buf.size) (by omega)
            rw [source] at moved
            rw [if_neg unwrapped, moved, grownSame]
    · rw [if_neg wraps]
      have straight : q.tail + q.len < q.buf.size ∧ q.head = q.tail + q.len := by
        split at headEq <;> omega
      refine ⟨_, rfl, well_formed_mk grown q.head q.tail q.len (by omega) (by omega) (by omega) ?_, ?_, grownSize, rfl⟩
      · rw [grownSize, straight.2, Nat.mod_eq_of_lt (by omega)]
      · apply to_list_ext
        · exact (length_to_list q).symm
        · intro i inside
          have bound : i < q.len := inside
          rw [getElem_to_list q i bound, slot_eq q i wf (by omega), if_pos (by omega)]
          simp only [slot, grownSize]
          rw [Nat.mod_eq_of_lt (by omega), grownSame]

theorem resize_cases (q : CircularQueue α) (wanted : Nat) (wf : q.WellFormed) :
    (wanted < q.buf.size ∧ q.resize wanted = .error (.shrink q.buf.size wanted)) ∨
      (q.buf.size ≤ wanted ∧ ∃ next, q.resize wanted = .ok next ∧ next.WellFormed ∧ next.toList = q.toList ∧
        next.buf.size = wanted) := by
  by_cases fewer : wanted < q.buf.size
  · exact Or.inl ⟨fewer, by rw [resize]; simp only [if_pos fewer]⟩
  · refine Or.inr ⟨Nat.not_lt.mp fewer, ?_⟩
    by_cases same : wanted = q.buf.size
    · exact ⟨q, by rw [resize]; simp only [if_neg fewer, if_pos same], wf, rfl, same.symm⟩
    · obtain ⟨next, resized, nextWf, list, size, -⟩ := resize_grows q wanted wf (by omega)
      exact ⟨next, resized, nextWf, list, size⟩

theorem push_cases (q : CircularQueue α) (record : α) (mayGrow : Bool) (wf : q.WellFormed) :
    ((q.len = q.buf.size ∧ mayGrow = false) ∧ q.push record mayGrow = .error .full) ∨
      (¬ (q.len = q.buf.size ∧ mayGrow = false) ∧ ∃ next, q.push record mayGrow = .ok next ∧ next.WellFormed ∧
        next.toList = q.toList ++ [record] ∧
        next.buf.size = if q.len = q.buf.size then q.buf.size + max (q.buf.size / 2) 1 else q.buf.size) := by
  rw [push]
  by_cases full : q.len = q.buf.size
  · cases mayGrow with
    | false =>
        rw [if_pos full]
        exact Or.inl ⟨⟨full, rfl⟩, rfl⟩
    | true =>
        obtain ⟨grown, resized, grownWf, grownList, grownSize, grownLen⟩ :=
          resize_grows q (q.buf.size + max (q.buf.size / 2) 1) wf (by omega)
        have room : grown.len < grown.buf.size := by omega
        rw [if_pos full, if_pos rfl, resized, if_pos full]
        refine Or.inr ⟨fun refused => Bool.noConfusion refused.2, _, rfl, well_formed_append grown record grownWf room, ?_, ?_⟩
        · rw [to_list_append grown record grownWf room, grownList]
        · simp only [append, Array.size_setIfInBounds, grownSize]
  · have room : q.len < q.buf.size := Nat.lt_of_le_of_ne wf.len_le full
    rw [if_neg full, if_neg full]
    refine Or.inr ⟨fun refused => full refused.1, _, rfl, well_formed_append q record wf room,
      to_list_append q record wf room, ?_⟩
    simp only [append, Array.size_setIfInBounds]

theorem push_grows (q : CircularQueue α) (record : α) (wf : q.WellFormed) :
    ∃ next, q.push record true = .ok next ∧ next.WellFormed ∧ next.toList = q.toList ++ [record] := by
  rcases push_cases q record true wf with ⟨refused, -⟩ | ⟨-, next, pushed, nextWf, list, -⟩
  · cases refused.2
  · exact ⟨next, pushed, nextWf, list⟩

theorem pop_cases (q : CircularQueue α) (wf : q.WellFormed) :
    (q.pop = none ∧ q.toList = []) ∨
      ∃ oldest next, q.pop = some (oldest, next) ∧ next.WellFormed ∧ q.toList = oldest :: next.toList ∧
        next.len + 1 = q.len := by
  rw [pop]
  by_cases empty : q.len = 0
  · rw [if_pos empty]
    exact Or.inl ⟨rfl, by simp [toList, empty]⟩
  · rw [if_neg empty]
    have tailInside := wf.tail_lt
    have lenBound := wf.len_le
    have shifted : ∀ i, ((q.tail + 1) % q.buf.size + i) % q.buf.size = q.slot (i + 1) := by
      intro i
      rw [Nat.mod_add_mod, slot, Nat.add_assoc, Nat.add_comm 1 i]
    refine Or.inr ⟨_, _, rfl, ⟨wf.capacity_pos, Nat.mod_lt _ wf.capacity_pos, by simp only; omega, ?_⟩, ?_, by simp only; omega⟩
    · rw [shifted, Nat.sub_add_cancel (by omega)]
      exact head_eq_slot q wf
    · apply to_list_ext
      · rw [List.length_cons, length_to_list]
        simp only
        omega
      · intro i inside
        cases i with
        | zero =>
            have first : q.slot 0 = q.tail := Nat.mod_eq_of_lt tailInside
            rw [first, List.getElem?_cons_zero]
        | succ i =>
            rw [List.getElem?_cons_succ, getElem_to_list _ i (by simp only; omega)]
            simp only [slot] at shifted ⊢
            rw [shifted]

theorem pop_newest_cases (q : CircularQueue α) (wf : q.WellFormed) :
    (q.popNewest = none ∧ q.toList = []) ∨
      ∃ newest next, q.popNewest = some (newest, next) ∧ next.WellFormed ∧ q.toList = next.toList ++ [newest] := by
  rw [popNewest]
  by_cases empty : q.len = 0
  · rw [if_pos empty]
    exact Or.inl ⟨rfl, by simp [toList, empty]⟩
  · rw [if_neg empty]
    have tailInside := wf.tail_lt
    have lenBound := wf.len_le
    have last : (q.head + q.buf.size - 1) % q.buf.size = q.slot (q.len - 1) := by
      have whole := slot_eq q q.len wf lenBound
      have headBound := slot_lt q q.len wf
      rw [head_eq_slot q wf, slot_eq q (q.len - 1) wf (by omega), wrap_once _ _ (by omega), whole]
      split <;> split <;> split <;> omega
    refine Or.inr ⟨_, _, rfl, ⟨wf.capacity_pos, tailInside, by simp only; omega, last⟩, ?_⟩
    apply to_list_ext
    · rw [List.length_append, length_to_list, List.length_singleton]
      simp only
      omega
    · intro i inside
      by_cases newest : i = q.len - 1
      · subst newest
        rw [List.getElem?_append_right (Nat.le_of_eq (length_to_list _)), length_to_list, Nat.sub_self,
          List.getElem?_cons_zero, last]
      · rw [List.getElem?_append_left (by rw [length_to_list]; simp only; omega),
          getElem_to_list _ i (by simp only; omega)]
        rfl

theorem pop_newest_pushed (q : CircularQueue α) (records : List α) (record : α) (wf : q.WellFormed)
    (pushed : q.toList = records ++ [record]) :
    ∃ rest, q.popNewest = some (record, rest) ∧ rest.WellFormed ∧ rest.toList = records := by
  rcases q.pop_newest_cases wf with ⟨-, nothing⟩ | ⟨newest, rest, popped, restWf, split⟩
  · rw [pushed] at nothing
    simp at nothing
  · rw [pushed] at split
    obtain ⟨front, last⟩ := List.append_inj' split rfl
    cases last
    exact ⟨rest, popped, restWf, front.symm⟩

def visitAll {σ : Type} (f : σ → α → σ × α) (seen : σ) : List α → σ × List α
  | [] => (seen, [])
  | record :: rest =>
    let (next, changed) := f seen record
    let (last, others) := visitAll f next rest
    (last, changed :: others)

section

variable {σ : Type} (f : σ → α → σ × α)

omit [Inhabited α]

theorem visit_all_concat (seen : σ) (records : List α) (record : α) :
    visitAll f seen (records ++ [record]) =
      ((f (visitAll f seen records).1 record).1,
        (visitAll f seen records).2 ++ [(f (visitAll f seen records).1 record).2]) := by
  induction records generalizing seen with
  | nil => rfl
  | cons first rest ih => simp only [List.cons_append, visitAll, ih]

theorem length_visit_all (seen : σ) (records : List α) : (visitAll f seen records).2.length = records.length := by
  induction records generalizing seen with
  | nil => rfl
  | cons first rest ih => simp only [visitAll, List.length_cons, ih]

theorem visit_all_noted (g : α → α) (seen records : List α) :
    visitAll (fun seen record => (seen ++ [record], g record)) seen records = (seen ++ records, records.map g) := by
  induction records generalizing seen with
  | nil => rw [visitAll, List.append_nil, List.map_nil]
  | cons first rest ih => simp only [visitAll, ih, List.append_assoc, List.cons_append, List.nil_append, List.map_cons]

theorem visit_all_stateless (g : α → α) (records : List α) :
    (visitAll (fun _ record => ((), g record)) () records).2 = records.map g := by
  induction records with
  | nil => rfl
  | cons first rest ih => simp only [visitAll, List.map_cons, ih]

end

-- How far a round of visits has come after `count` of them: what was seen and changed so far is what the list of the
-- records visited gives, and the other records are as they were.
structure Visited {σ : Type} (q : CircularQueue α) (f : σ → α → σ × α) (start : σ) (count : Nat)
    (reached : σ × Array α) : Prop where
  size : reached.2.size = q.buf.size
  seen : reached.1 = (visitAll f start (q.toList.take count)).1
  changed : ∀ j, j < count →
    some (reached.2.getD (q.slot j) default) = (visitAll f start (q.toList.take count)).2[j]?
  kept : ∀ j, count ≤ j → j < q.buf.size → reached.2.getD (q.slot j) default = q.buf.getD (q.slot j) default

section

variable {σ : Type} (q : CircularQueue α) (f : σ → α → σ × α) (start : σ) (wf : q.WellFormed)

include wf

theorem visited_slots (count : Nat) (bound : count ≤ q.len) :
    Visited q f start count ((List.range count).foldl (q.visitSlot f) (start, q.buf)) := by
  have lenBound := wf.len_le
  induction count with
  | zero => exact ⟨rfl, rfl, fun _ impossible => absurd impossible (Nat.not_lt_zero _), fun _ _ _ => rfl⟩
  | succ count ih =>
      obtain ⟨size, seen, changed, kept⟩ := ih (by omega)
      have target := slot_lt q count wf
      have front : q.toList.take (count + 1) = q.toList.take count ++ [q.buf.getD (q.slot count) default] := by
        rw [List.take_add_one, getElem_to_list q count bound, Option.toList_some]
      have visited : (visitAll f start (q.toList.take count)).2.length = count := by
        rw [length_visit_all, List.length_take, length_to_list, Nat.min_eq_left (by omega)]
      rw [List.range_succ, List.foldl_append, List.foldl_cons, List.foldl_nil, visitSlot,
        kept count (Nat.le_refl _) (by omega), seen]
      refine ⟨?_, ?_, fun j earlier => ?_, fun j later inside => ?_⟩
      · simpa using size
      · rw [front, visit_all_concat]
      · rw [front, visit_all_concat, getD_set _ _ _ _ (by rw [size]; exact target)]
        by_cases last : j = count
        · subst last
          rw [if_pos rfl, List.getElem?_append_right (Nat.le_of_eq visited), visited, Nat.sub_self,
            List.getElem?_cons_zero]
        · have different : q.slot j ≠ q.slot count := fun same =>
            last (slot_inj q j count wf (by omega) (by omega) same)
          rw [if_neg different, List.getElem?_append_left (by omega)]
          exact changed j (by omega)
      · have different : q.slot j ≠ q.slot count := fun same =>
          absurd (slot_inj q j count wf inside (by omega) same) (by omega)
        rw [getD_set _ _ _ _ (by rw [size]; exact target), if_neg different]
        exact kept j (by omega) inside

theorem well_formed_visit : (q.visit f start).2.WellFormed := by
  have size := (visited_slots q f start wf q.len (Nat.le_refl _)).size
  rw [visit]
  exact ⟨by rw [size]; exact wf.capacity_pos, by rw [size]; exact wf.tail_lt, by rw [size]; exact wf.len_le,
    by rw [size]; exact wf.head_eq⟩

theorem size_visit : (q.visit f start).2.buf.size = q.buf.size :=
  (visited_slots q f start wf q.len (Nat.le_refl _)).size

theorem visit_eq :
    (q.visit f start).1 = (visitAll f start q.toList).1 ∧
      (q.visit f start).2.toList = (visitAll f start q.toList).2 := by
  obtain ⟨size, seen, changed, -⟩ := visited_slots q f start wf q.len (Nat.le_refl _)
  have all : q.toList.take q.len = q.toList := List.take_of_length_le (Nat.le_of_eq (length_to_list q))
  rw [all] at seen changed
  refine ⟨seen, ?_⟩
  apply to_list_ext
  · rw [length_visit_all, length_to_list]
    rfl
  · intro i inside
    have sameSlot : (q.visit f start).2.slot i = q.slot i := congrArg (fun n => (q.tail + i) % n) size
    rw [sameSlot]
    exact changed i inside

end

theorem modify_eq_set (buf : Array α) (i : Nat) (f : α → α) :
    buf.modify i f = buf.setIfInBounds i (f (buf.getD i default)) := by
  apply Array.ext_getElem?
  intro j
  rw [Array.getElem?_modify, Array.getElem?_setIfInBounds, Array.getD_eq_getD_getElem?]
  by_cases same : i = j
  · subst same
    by_cases inside : i < buf.size <;> simp [inside]
  · rw [if_neg same, if_neg same]

theorem map_eq_visit (q : CircularQueue α) (f : α → α) :
    q.map f = (q.visit (fun _ record => ((), f record)) ()).2 := by
  have sameBuf : ∀ (places : List Nat) (buf : Array α),
      (places.foldl (q.visitSlot fun _ record => ((), f record)) ((), buf)).2 =
        places.foldl (fun buf i => buf.modify (q.slot i) f) buf := by
    intro places
    induction places with
    | nil => exact fun _ => rfl
    | cons i rest ih =>
        intro buf
        rw [List.foldl_cons, List.foldl_cons, modify_eq_set]
        exact ih _
  rw [map, visit]
  simp only [sameBuf]

theorem well_formed_map (q : CircularQueue α) (f : α → α) (wf : q.WellFormed) : (q.map f).WellFormed := by
  rw [map_eq_visit]
  exact well_formed_visit q _ () wf

theorem to_list_map (q : CircularQueue α) (f : α → α) (wf : q.WellFormed) : (q.map f).toList = q.toList.map f := by
  rw [map_eq_visit, (visit_eq q _ () wf).2, visit_all_stateless]

theorem map_fixed (q : CircularQueue α) (f : α → α) (fixed : ∀ record ∈ q.toList, f record = record) : q.map f = q := by
  have kept : ∀ count, count ≤ q.len → (List.range count).foldl (fun buf i => buf.modify (q.slot i) f) q.buf = q.buf := by
    intro count bound
    induction count with
    | zero => rfl
    | succ count ih =>
        have listed := List.mem_of_getElem? (getElem_to_list q count bound)
        rw [List.range_succ, List.foldl_append, ih (by omega), List.foldl_cons, List.foldl_nil, modify_eq_set, fixed _ listed]
        apply Array.ext_getElem?
        intro j
        rw [Array.getElem?_setIfInBounds, Array.getD_eq_getD_getElem?]
        by_cases same : q.slot count = j
        · subst same
          by_cases inside : q.slot count < q.buf.size <;> simp [inside]
        · rw [if_neg same]
  rw [map, kept q.len (Nat.le_refl _)]

end DemandPaging.CircularQueue
