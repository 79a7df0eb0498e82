import DemandPaging.Pager.Fault
import DemandPaging.Pager.Objects
import DemandPaging.Proofs.Ensures

set_option autoImplicit false

namespace DemandPaging.Pager

variable [Platform]

variable {α β : Type}

-- From the states `p` and `q` the two steps have the same result or the same failure. With a result `a` the states
-- afterwards satisfy `ok a`, with a failure they satisfy `stopped`.
def Pairs (x y : M α) (p q : Pager) (ok : α → Pager → Pager → Prop) (stopped : Pager → Pager → Prop) : Prop :=
  match x.run p, y.run q with
  | .ok a p', .ok b q' => a = b ∧ ok a p' q'
  | .error halt p', .error other q' => halt = other ∧ stopped p' q'
  | _, _ => False

theorem pairs_cases (x y : M α) (p q : Pager) (ok : α → Pager → Pager → Prop) (stopped : Pager → Pager → Prop)
    (pairs : Pairs x y p q ok stopped) :
    (∃ a p' q', x.run p = .ok a p' ∧ y.run q = .ok a q' ∧ ok a p' q') ∨
    ∃ halt p' q', x.run p = .error halt p' ∧ y.run q = .error halt q' ∧ stopped p' q' := by
  rw [Pairs] at pairs
  cases left : x.run p with
  | ok a p' =>
      cases right : y.run q with
      | ok b q' =>
          simp only [left, right] at pairs
          obtain ⟨rfl, after⟩ := pairs
          exact Or.inl ⟨a, p', q', rfl, rfl, after⟩
      | error other q' => simp [left, right] at pairs
  | error halt p' =>
      cases right : y.run q with
      | ok b q' => simp [left, right] at pairs
      | error other q' =>
          simp only [left, right] at pairs
          obtain ⟨rfl, after⟩ := pairs
          exact Or.inr ⟨halt, p', q', rfl, rfl, after⟩

section

variable (p q : Pager) (ok : α → Pager → Pager → Prop) (stopped : Pager → Pager → Prop)

theorem pairs_pure (a : α) (after : ok a p q) : Pairs (pure a) (pure a) p q ok stopped := ⟨rfl, after⟩

theorem pairs_throw (halt : Halt) (after : stopped p q) : Pairs (throw halt : M α) (throw halt) p q ok stopped :=
  ⟨rfl, after⟩

theorem pairs_fail (failure : Failure) (after : stopped p q) : Pairs (fail failure : M α) (fail failure) p q ok stopped :=
  ⟨rfl, after⟩

theorem pairs_breach (b : Breach) (after : stopped p q) : Pairs (breach b : M α) (breach b) p q ok stopped :=
  ⟨rfl, after⟩

theorem pairs_lift (e : Except Halt α) (after : ∀ a, e = .ok a → ok a p q) (failed : stopped p q) :
    Pairs (lift e) (lift e) p q ok stopped := by
  cases e with
  | ok a => exact ⟨rfl, after a rfl⟩
  | error halt => exact ⟨rfl, failed⟩

theorem pairs_word (e : Except Word.Fault α) (after : ∀ a, e = .ok a → ok a p q) (failed : stopped p q) :
    Pairs (word e) (word e) p q ok stopped := by
  cases e with
  | ok a => exact ⟨rfl, after a rfl⟩
  | error fault => exact ⟨rfl, failed⟩

theorem pairs_attempt (e : Except Failure α) (after : ∀ a, e = .ok a → ok a p q) (failed : stopped p q) :
    Pairs (attempt e) (attempt e) p q ok stopped := by
  cases e with
  | ok a => exact ⟨rfl, after a rfl⟩
  | error failure => exact ⟨rfl, failed⟩

theorem pairs_set (p' q' : Pager) (next : Unit → Pager → Pager → Prop) (after : next () p' q') :
    Pairs (set p' : M Unit) (set q') p q next stopped := ⟨rfl, after⟩

theorem pairs_modify (f g : Pager → Pager) (next : Unit → Pager → Pager → Prop) (after : next () (f p) (g q)) :
    Pairs (modify f : M Unit) (modify g) p q next stopped := ⟨rfl, after⟩

theorem pairs_get (f g : Pager → M α) (rest : Pairs (f p) (g q) p q ok stopped) :
    Pairs (get >>= f) (get >>= g) p q ok stopped := rest

theorem pairs_bind (x y : M β) (f g : β → M α) (middle : β → Pager → Pager → Prop) (first : Pairs x y p q middle stopped)
    (rest : ∀ b p' q', middle b p' q' → Pairs (f b) (g b) p' q' ok stopped) :
    Pairs (x >>= f) (y >>= g) p q ok stopped := by
  rw [Pairs, EStateM.run_bind, EStateM.run_bind]
  rcases pairs_cases x y p q middle stopped first with ⟨b, p', q', left, right, after⟩ | ⟨halt, p', q', left, right, after⟩
  · rw [left, right]
    exact rest b p' q' after
  · rw [left, right]
    exact ⟨rfl, after⟩

theorem run_try_catch (x : M α) (f : Halt → M α) : (tryCatch x f).run p =
    match x.run p with
    | .ok a p' => .ok a p'
    | .error halt p' => (f halt).run p' := by
  show EStateM.tryCatch x f p = _
  delta EStateM.tryCatch EStateM.run
  cases x p <;> rfl

theorem pairs_try_catch (x y : M α) (f g : Halt → M α) (caught : Pager → Pager → Prop) (tried : Pairs x y p q ok caught)
    (rest : ∀ halt p' q', caught p' q' → Pairs (f halt) (g halt) p' q' ok stopped) :
    Pairs (tryCatch x f) (tryCatch y g) p q ok stopped := by
  rw [Pairs, run_try_catch, run_try_catch]
  rcases pairs_cases x y p q ok caught tried with ⟨a, p', q', left, right, after⟩ | ⟨halt, p', q', left, right, after⟩
  · rw [left, right]
    exact ⟨rfl, after⟩
  · rw [left, right]
    exact rest halt p' q' after

theorem pairs_ite (c : Prop) [Decidable c] (x y z w : M α) (taken : c → Pairs x z p q ok stopped)
    (other : ¬ c → Pairs y w p q ok stopped) :
    Pairs (if c then x else y) (if c then z else w) p q ok stopped := by
  by_cases holds : c
  · rw [if_pos holds, if_pos holds]
    exact taken holds
  · rw [if_neg holds, if_neg holds]
    exact other holds

theorem pairs_mono (x y : M α) (weak : α → Pager → Pager → Prop) (late : Pager → Pager → Prop)
    (strong : Pairs x y p q ok stopped) (results : ∀ a p' q', ok a p' q' → weak a p' q')
    (failures : ∀ p' q', stopped p' q' → late p' q') : Pairs x y p q weak late := by
  rw [Pairs]
  rcases pairs_cases x y p q ok stopped strong with ⟨a, p', q', left, right, after⟩ | ⟨halt, p', q', left, right, after⟩
  · rw [left, right]
    exact ⟨rfl, results a p' q' after⟩
  · rw [left, right]
    exact ⟨rfl, failures p' q' after⟩

end

section

variable (x y : M α) (p q : Pager) (ok : α → Pager → Pager → Prop) (stopped : Pager → Pager → Prop)

theorem pairs_ensures (good : α → Pager → Prop) (bad : Halt → Pager → Prop) (pairs : Pairs x y p q ok stopped)
    (ensures : Ensures x p good bad) : Pairs x y p q (fun a p' q' => ok a p' q' ∧ good a p') stopped := by
  rw [Pairs]
  rcases pairs_cases x y p q ok stopped pairs with ⟨a, p', q', left, right, after⟩ | ⟨halt, p', q', left, right, after⟩
  · rw [left, right]
    exact ⟨rfl, after, ensures_result p good bad x p' a ensures left⟩
  · rw [left, right]
    exact ⟨rfl, after⟩

theorem pairs_of_runs (x' y' : M α) (p' q' : Pager) (left : x.run p = x'.run p') (right : y.run q = y'.run q')
    (pairs : Pairs x' y' p' q' ok stopped) : Pairs x y p q ok stopped := by
  rw [Pairs, left, right]
  exact pairs

theorem pairs_of_ensures (left right : α → Pager → Prop) (first : Ensures x p left fun _ _ => False)
    (second : Ensures y q right fun _ _ => False)
    (meet : ∀ a b p' q', left a p' → right b q' → a = b ∧ ok a p' q') : Pairs x y p q ok stopped := by
  obtain ⟨a, p', ran, after⟩ := returns_of_ensures p _ x first
  obtain ⟨b, q', otherRan, otherAfter⟩ := returns_of_ensures q _ y second
  rw [Pairs, ran, otherRan]
  exact meet a b p' q' after otherAfter

theorem run_eq_of_ensures (same : ∀ ok stopped, Ensures x p ok stopped ↔ Ensures y q ok stopped) : x.run p = y.run q := by
  have own : Ensures y q (fun a s => y.run q = .ok a s) (fun halt s => y.run q = .error halt s) := by
    rw [Ensures]
    cases ran : y.run q <;> exact rfl
  have first := (same _ _).mpr own
  rw [Ensures] at first
  cases ran : x.run p with
  | ok a s =>
      rw [ran] at first
      exact first.symm
  | error halt s =>
      rw [ran] at first
      exact first.symm

end

def Agrees (related : Pager → Pager → Prop) (step : M α) : Prop :=
  ∀ p q, related p q → Pairs step step p q (fun _ => related) related

section

variable (related : Pager → Pager → Prop)

theorem agrees_pure (a : α) : Agrees related (pure a : M α) := fun p q given => pairs_pure p q _ _ a given

theorem agrees_throw (halt : Halt) : Agrees related (throw halt : M α) := fun p q given => pairs_throw p q _ _ halt given

theorem agrees_fail (failure : Failure) : Agrees related (fail failure : M α) :=
  fun p q given => pairs_fail p q _ _ failure given

theorem agrees_breach (b : Breach) : Agrees related (breach b : M α) := fun p q given => pairs_breach p q _ _ b given

theorem agrees_lift (e : Except Halt α) : Agrees related (lift e) :=
  fun p q given => pairs_lift p q _ _ e (fun _ _ => given) given

theorem agrees_word (e : Except Word.Fault α) : Agrees related (word e) :=
  fun p q given => pairs_word p q _ _ e (fun _ _ => given) given

theorem agrees_attempt (e : Except Failure α) : Agrees related (attempt e) :=
  fun p q given => pairs_attempt p q _ _ e (fun _ _ => given) given

theorem agrees_bind (step : M β) (f : β → M α) (first : Agrees related step) (rest : ∀ b, Agrees related (f b)) :
    Agrees related (step >>= f) :=
  fun p q given => pairs_bind p q _ _ step step f f _ (first p q given) fun b p' q' => rest b p' q'

theorem agrees_ite (c : Prop) [Decidable c] (step other : M α) (taken : Agrees related step) (left : Agrees related other) :
    Agrees related (if c then step else other) :=
  fun p q given => pairs_ite p q _ _ c step other step other (fun _ => taken p q given) fun _ => left p q given

theorem agrees_check (c : Prop) [Decidable c] (stop : M Unit) (f : Unit → M α) (stops : Agrees related stop)
    (rest : Agrees related (f ())) : Agrees related (if c then stop >>= f else f ()) :=
  agrees_ite related c _ _ (agrees_bind related _ _ stops fun _ => rest) rest

theorem agrees_modify (f : Pager → Pager) (keeps : ∀ p q, related p q → related (f p) (f q)) :
    Agrees related (modify f : M Unit) :=
  fun p q given => pairs_modify p q _ f f _ (keeps p q given)

theorem agrees_read (read : Pager → β) (f : β → M α) (same : ∀ p q, related p q → read q = read p)
    (rest : ∀ b, Agrees related (f b)) : Agrees related (do f (read (← get))) := by
  intro p q given
  apply pairs_get
  rw [same p q given]
  exact rest (read p) p q given

end

end DemandPaging.Pager
