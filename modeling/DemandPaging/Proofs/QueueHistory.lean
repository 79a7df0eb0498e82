import DemandPaging.Proofs.QueueOrder

set_option autoImplicit false

namespace DemandPaging.CircularQueue

variable {σ α : Type}

-- A visitor of the records carries what it has seen, a `σ`, from one to the next.
inductive Op (σ α : Type) where
  | push (record : α) (mayGrow : Bool)
  | pop
  | popNewest
  | peek
  | list
  | visit (f : σ → α → σ × α) (start : σ)
  | resize (wanted : Nat)
  | size

inductive Answer (σ α : Type) where
  | done
  | refused (why : Refusal)
  | record (found : Option α)
  | records (all : List α)
  | seen (last : σ)
  | size (len capacity : Nat)

structure Row (α : Type) where
  records : List α
  capacity : Nat

namespace Row

def perform (r : Row α) : Op σ α → Answer σ α × Row α
  | .push record mayGrow =>
    if r.records.length = r.capacity ∧ mayGrow = false then
      (.refused .full, r)
    else
      (.done,
        { records := r.records ++ [record]
          capacity := if r.records.length = r.capacity then r.capacity + max (r.capacity / 2) 1 else r.capacity })
  | .pop => (.record r.records.head?, { r with records := r.records.tail })
  | .popNewest => (.record r.records.getLast?, { r with records := r.records.dropLast })
  | .peek => (.record r.records.head?, r)
  | .list => (.records r.records, r)
  | .visit f start => (.seen (visitAll f start r.records).1, { r with records := (visitAll f start r.records).2 })
  | .resize wanted =>
    if wanted < r.capacity then
      (.refused (.shrink r.capacity wanted), r)
    else
      (.done, { r with capacity := wanted })
  | .size => (.size r.records.length r.capacity, r)

def performAll (r : Row α) : List (Op σ α) → List (Answer σ α) × Row α
  | [] => ([], r)
  | op :: ops =>
    let (answer, next) := r.perform op
    let (answers, last) := next.performAll ops
    (answer :: answers, last)

end Row

variable [Inhabited α]

-- One operation on the queue. A refused operation leaves the queue as it was.
def perform (q : CircularQueue α) : Op σ α → Answer σ α × CircularQueue α
  | .push record mayGrow =>
    match q.push record mayGrow with
    | .ok next => (.done, next)
    | .error why => (.refused why, q)
  | .pop =>
    match q.pop with
    | some (oldest, next) => (.record (some oldest), next)
    | none => (.record none, q)
  | .popNewest =>
    match q.popNewest with
    | some (newest, next) => (.record (some newest), next)
    | none => (.record none, q)
  | .peek => (.record q.peek?, q)
  | .list => (.records q.toList, q)
  | .visit f start => (.seen (q.visit f start).1, (q.visit f start).2)
  | .resize wanted =>
    match q.resize wanted with
    | .ok next => (.done, next)
    | .error why => (.refused why, q)
  | .size => (.size q.len q.capacity, q)

def performAll (q : CircularQueue α) : List (Op σ α) → List (Answer σ α) × CircularQueue α
  | [] => ([], q)
  | op :: ops =>
    let (answer, next) := q.perform op
    let (answers, last) := next.performAll ops
    (answer :: answers, last)

def row (q : CircularQueue α) : Row α := ⟨q.toList, q.capacity⟩

section

variable (q : CircularQueue α) (wf : q.WellFormed)

def Agrees (op : Op σ α) : Prop :=
  (q.perform op).2.WellFormed ∧ (q.perform op).1 = (q.row.perform op).1 ∧ (q.perform op).2.row = (q.row.perform op).2

include wf

theorem agrees_push (record : α) (mayGrow : Bool) : q.Agrees (.push record mayGrow : Op σ α) := by
  rw [Agrees]
  simp only [perform, Row.perform, row, capacity, length_to_list]
  rcases push_cases q record mayGrow wf with ⟨refused, pushed⟩ | ⟨accepted, next, pushed, nextWf, list, size⟩
  · rw [pushed, if_pos refused]
    exact ⟨wf, rfl, rfl⟩
  · rw [pushed, if_neg accepted]
    exact ⟨nextWf, rfl, congrArg₂ Row.mk list size⟩

theorem agrees_pop : q.Agrees (.pop : Op σ α) := by
  rw [Agrees]
  simp only [perform, Row.perform, row, capacity]
  rcases pop_cases q wf with ⟨popped, empty⟩ | ⟨oldest, next, popped, nextWf, list, -⟩
  · simp only [popped, empty]
    exact ⟨wf, rfl, rfl⟩
  · have size : next.buf.size = q.buf.size := by
      rw [pop] at popped
      split at popped
      · cases popped
      · cases popped
        rfl
    rw [popped, list]
    exact ⟨nextWf, rfl, congrArg₂ Row.mk rfl size⟩

theorem agrees_pop_newest : q.Agrees (.popNewest : Op σ α) := by
  rw [Agrees]
  simp only [perform, Row.perform, row, capacity]
  rcases pop_newest_cases q wf with ⟨popped, empty⟩ | ⟨newest, next, popped, nextWf, list⟩
  · simp only [popped, empty]
    exact ⟨wf, rfl, rfl⟩
  · have size : next.buf.size = q.buf.size := by
      rw [popNewest] at popped
      split at popped
      · cases popped
      · cases popped
        rfl
    rw [popped, list, List.getLast?_concat, List.dropLast_concat]
    exact ⟨nextWf, rfl, congrArg₂ Row.mk rfl size⟩

theorem peek_eq_head : q.peek? = q.toList.head? := by
  have tailInside := wf.tail_lt
  rw [peek?, List.head?_eq_getElem?]
  by_cases empty : q.len = 0
  · rw [if_pos empty, List.getElem?_eq_none (by rw [length_to_list]; omega)]
  · have first : q.slot 0 = q.tail := Nat.mod_eq_of_lt tailInside
    rw [if_neg empty, getElem_to_list q 0 (by omega), first]

theorem agrees_resize (wanted : Nat) : q.Agrees (.resize wanted : Op σ α) := by
  rw [Agrees]
  simp only [perform, Row.perform]
  rcases resize_cases q wanted wf with ⟨fewer, refused⟩ | ⟨enough, next, resized, nextWf, list, size⟩
  · have below : wanted < q.row.capacity := fewer
    rw [refused, if_pos below]
    exact ⟨wf, rfl, rfl⟩
  · have notBelow : ¬ wanted < q.row.capacity := Nat.not_lt.mpr enough
    rw [resized, if_neg notBelow]
    exact ⟨nextWf, rfl, congrArg₂ Row.mk list size⟩

theorem agrees_of_well_formed (op : Op σ α) : q.Agrees op := by
  cases op with
  | push record mayGrow => exact agrees_push q wf record mayGrow
  | pop => exact agrees_pop q wf
  | popNewest => exact agrees_pop_newest q wf
  | peek => exact ⟨wf, congrArg Answer.record (peek_eq_head q wf), rfl⟩
  | list => exact ⟨wf, rfl, rfl⟩
  | visit f start =>
      obtain ⟨seen, list⟩ := visit_eq q f start wf
      exact ⟨well_formed_visit q f start wf, congrArg Answer.seen seen, congrArg₂ Row.mk list (size_visit q f start wf)⟩
  | resize wanted => exact agrees_resize q wf wanted
  | size => exact ⟨wf, congrArg (Answer.size · q.capacity) (length_to_list q).symm, rfl⟩

theorem perform_all_agrees (ops : List (Op σ α)) :
    (q.performAll ops).2.WellFormed ∧ (q.performAll ops).1 = (q.row.performAll ops).1 ∧
      (q.performAll ops).2.row = (q.row.performAll ops).2 := by
  induction ops generalizing q with
  | nil => exact ⟨wf, rfl, rfl⟩
  | cons op ops ih =>
      obtain ⟨nextWf, answer, left⟩ := agrees_of_well_formed q wf op
      obtain ⟨lastWf, answers, last⟩ := ih (q.perform op).2 nextWf
      simp only [performAll, Row.performAll]
      rw [← left]
      exact ⟨lastWf, congrArg₂ List.cons answer answers, last⟩

theorem capacity_perform (op : Op σ α) : q.capacity ≤ (q.perform op).2.capacity := by
  have row := (agrees_of_well_formed q wf op).2.2
  have same : (q.perform op).2.capacity = (q.row.perform op).2.capacity := congrArg Row.capacity row
  have kept : q.row.capacity ≤ (q.row.perform op).2.capacity := by
    cases op with
    | push record mayGrow =>
        simp only [Row.perform]
        split
        · exact Nat.le_refl _
        · split
          · exact Nat.le_add_right _ _
          · exact Nat.le_refl _
    | resize wanted =>
        simp only [Row.perform]
        split
        · exact Nat.le_refl _
        · exact Nat.not_lt.mp ‹_›
    | _ => exact Nat.le_refl _
  rw [same]
  exact kept

theorem push_full_iff (record : α) (mayGrow : Bool) :
    q.push record mayGrow = .error .full ↔ q.len = q.capacity ∧ mayGrow = false := by
  rcases push_cases q record mayGrow wf with ⟨refused, pushed⟩ | ⟨accepted, next, pushed, -⟩
  · exact ⟨fun _ => refused, fun _ => pushed⟩
  · exact ⟨fun refused => by simp [pushed] at refused, fun given => absurd given accepted⟩

theorem resize_shrink_iff (wanted : Nat) :
    q.resize wanted = .error (.shrink q.capacity wanted) ↔ wanted < q.capacity := by
  rcases resize_cases q wanted wf with ⟨fewer, refused⟩ | ⟨enough, next, resized, -⟩
  · exact ⟨fun _ => fewer, fun _ => refused⟩
  · exact ⟨fun refused => by simp [resized] at refused, fun fewer => absurd fewer (Nat.not_lt.mpr enough)⟩

theorem to_list_resized (wanted : Nat) (next : CircularQueue α) (resized : q.resize wanted = .ok next) :
    next.toList = q.toList := by
  rcases resize_cases q wanted wf with ⟨-, refused⟩ | ⟨-, other, grown, -, list, -⟩
  · rw [refused] at resized
    cases resized
  · cases grown.symm.trans resized
    exact list

theorem pop_newest_undoes_push (record : α) (mayGrow : Bool) (next : CircularQueue α)
    (pushed : q.push record mayGrow = .ok next) :
    ∃ rest, next.popNewest = some (record, rest) ∧ rest.toList = q.toList := by
  rcases push_cases q record mayGrow wf with ⟨-, refused⟩ | ⟨-, other, accepted, otherWf, list, -⟩
  · rw [refused] at pushed
    cases pushed
  · cases accepted.symm.trans pushed
    obtain ⟨rest, popped, -, restored⟩ := pop_newest_pushed _ q.toList record otherWf list
    exact ⟨rest, popped, restored⟩

theorem visit_noted (f : α → α) :
    (q.visit (fun seen record => (seen ++ [record], f record)) []).1 = q.toList ∧
      (q.visit (fun seen record => (seen ++ [record], f record)) []).2.toList = q.toList.map f := by
  have visited := visit_eq q (fun seen record => (seen ++ [record], f record)) [] wf
  rw [visit_all_noted, List.nil_append] at visited
  exact visited

end

theorem perform_refused (q : CircularQueue α) (op : Op σ α) (why : Refusal) (refused : (q.perform op).1 = .refused why) :
    (q.perform op).2 = q := by
  cases op with
  | push record mayGrow =>
      cases pushed : q.push record mayGrow with
      | ok next => simp [perform, pushed] at refused
      | error cause => simp only [perform, pushed]
  | pop =>
      cases popped : q.pop with
      | none => simp only [perform, popped]
      | some pair => simp [perform, popped] at refused
  | popNewest =>
      cases popped : q.popNewest with
      | none => simp only [perform, popped]
      | some pair => simp [perform, popped] at refused
  | resize wanted =>
      cases resized : q.resize wanted with
      | ok next => simp [perform, resized] at refused
      | error cause => simp only [perform, resized]
  | _ => cases refused

theorem history_of_records (capacity : Nat) (ops : List (Op σ α)) :
    let q := ((withCapacity capacity : CircularQueue α).performAll ops).2
    let r : Row α := ⟨[], max capacity 1⟩
    ((withCapacity capacity : CircularQueue α).performAll ops).1 = (r.performAll ops).1 ∧
      q.toList = (r.performAll ops).2.records ∧ q.capacity = (r.performAll ops).2.capacity ∧
      q.len = q.toList.length ∧ q.len ≤ q.capacity ∧
      (∀ op : Op σ α, q.capacity ≤ (q.perform op).2.capacity) ∧
      (∀ (op : Op σ α) why, (q.perform op).1 = .refused why → (q.perform op).2 = q) ∧
      (∀ record mayGrow, q.push record mayGrow = .error .full ↔ q.len = q.capacity ∧ mayGrow = false) ∧
      (∀ wanted, q.resize wanted = .error (.shrink q.capacity wanted) ↔ wanted < q.capacity) ∧
      (∀ wanted next, q.resize wanted = .ok next → next.toList = q.toList) ∧
      (∀ record mayGrow next, q.push record mayGrow = .ok next →
        ∃ rest, next.popNewest = some (record, rest) ∧ rest.toList = q.toList) ∧
      ∀ f : α → α, (q.visit (fun seen record => (seen ++ [record], f record)) []).1 = q.toList ∧
        (q.visit (fun seen record => (seen ++ [record], f record)) []).2.toList = q.toList.map f := by
  intro q r
  obtain ⟨wf, answers, row⟩ :=
    perform_all_agrees (withCapacity capacity : CircularQueue α) (well_formed_with_capacity capacity) ops
  have start : (withCapacity capacity : CircularQueue α).row = r :=
    congrArg₂ Row.mk (to_list_with_capacity capacity) Array.size_replicate
  rw [start] at answers row
  change q.WellFormed at wf
  change q.row = (r.performAll ops).2 at row
  exact ⟨answers, congrArg Row.records row, congrArg Row.capacity row, (length_to_list q).symm, wf.len_le,
    capacity_perform q wf, perform_refused q, push_full_iff q wf, resize_shrink_iff q wf, to_list_resized q wf,
    pop_newest_undoes_push q wf, visit_noted q wf⟩

end DemandPaging.CircularQueue
