import DemandPaging.Pager.State

set_option autoImplicit false

namespace DemandPaging.Pager

variable [Platform]

variable {α β : Type}

-- From the state `p`, results of the step satisfy `ok` and failures satisfy `stopped`.
def Ensures (x : M α) (p : Pager) (ok : α → Pager → Prop) (stopped : Halt → Pager → Prop) : Prop :=
  match x.run p with
  | .ok a q => ok a q
  | .error halt q => stopped halt q

def leftBy (p : Pager) (x : M α) : Pager :=
  match x.run p with
  | .ok _ q | .error _ q => q

section

variable (p : Pager) (ok : α → Pager → Prop) (stopped : Halt → Pager → Prop)

@[simp]
theorem ensures_pure (a : α) : Ensures (pure a) p ok stopped ↔ ok a p := Iff.rfl

@[simp]
theorem ensures_throw (halt : Halt) : Ensures (throw halt : M α) p ok stopped ↔ stopped halt p := Iff.rfl

@[simp]
theorem ensures_fail (failure : Failure) : Ensures (fail failure : M α) p ok stopped ↔ stopped (.failed failure) p := Iff.rfl

@[simp]
theorem ensures_breach (b : Breach) :
    Ensures (breach b : M α) p ok stopped ↔ stopped (.failed (.invariant b)) p := Iff.rfl

@[simp]
theorem ensures_get (next : Pager → Pager → Prop) : Ensures (get : M Pager) p next stopped ↔ next p p := Iff.rfl

@[simp]
theorem ensures_set (q : Pager) (next : Unit → Pager → Prop) :
    Ensures (set q : M Unit) p next stopped ↔ next () q := Iff.rfl

@[simp]
theorem ensures_modify (f : Pager → Pager) (next : Unit → Pager → Prop) :
    Ensures (modify f : M Unit) p next stopped ↔ next () (f p) := Iff.rfl

@[simp]
theorem ensures_word_ok (a : α) : Ensures (word (.ok a)) p ok stopped ↔ ok a p := Iff.rfl

@[simp]
theorem ensures_word_error (fault : Word.Fault) :
    Ensures (word (.error fault) : M α) p ok stopped ↔ stopped (.arithmetic fault) p := Iff.rfl

theorem ensures_word_add (a b : Nat) (next : Nat → Pager → Prop) :
    Ensures (word (Word.add a b)) p next stopped ↔
      (a + b < Word.limit → next (a + b) p) ∧ (¬ a + b < Word.limit → stopped (.arithmetic .addOverflow) p) := by
  rw [Word.add]
  by_cases fits : a + b < Word.limit <;> simp [fits]

@[simp]
theorem ensures_attempt_ok (a : α) : Ensures (attempt (.ok a)) p ok stopped ↔ ok a p := Iff.rfl

theorem ensures_ask (host : Host) (call : SystemCall) (next : Unit → Pager → Prop) :
    Ensures (ask host call) p next stopped ↔
      (host.refuse call = none → next () p) ∧
      ∀ cause, host.refuse call = some cause → stopped (.failed (.resource call.text cause)) p := by
  rw [ask, Host.ask]
  cases host.refuse call with
  | none => simp
  | some cause =>
      have refused : Ensures (attempt (.error (.resource call.text cause))) p next stopped ↔
          stopped (.failed (.resource call.text cause)) p := Iff.rfl
      simp [refused]

theorem ensures_bind (x : M β) (f : β → M α) :
    Ensures (x >>= f) p ok stopped ↔ Ensures x p (fun b q => Ensures (f b) q ok stopped) stopped := by
  unfold Ensures
  simp only [bind, EStateM.bind, EStateM.run]
  cases x p <;> rfl

theorem ensures_ite (c : Prop) [Decidable c] (x y : M α) :
    Ensures (if c then x else y) p ok stopped ↔
      (c → Ensures x p ok stopped) ∧ (¬ c → Ensures y p ok stopped) := by
  by_cases holds : c <;> simp [holds]

theorem ensures_try_catch (x : M α) (handler : Halt → M α) :
    Ensures (tryCatch x handler) p ok stopped ↔
      Ensures x p ok (fun halt q => Ensures (handler halt) q ok stopped) := by
  have caught : (tryCatch x handler).run p = EStateM.tryCatch x handler p := rfl
  rw [Ensures, Ensures, caught]
  delta EStateM.tryCatch EStateM.run
  cases x p <;> rfl

@[simp]
theorem ensures_count (f : Counters → Counters) (next : Unit → Pager → Prop) :
    Ensures (count f) p next stopped ↔ next () { p with counters := f p.counters } := Iff.rfl

@[simp]
theorem ensures_record (event : Event) (next : Unit → Pager → Prop) :
    Ensures (record event) p next stopped ↔ next () { p with journal := event :: p.journal } := Iff.rfl

@[simp]
theorem ensures_set_resident (n : Nat) (next : Unit → Pager → Prop) :
    Ensures (setResident n) p next stopped ↔
      next () { p with resident := n, counters := p.counters.setResident n } := Iff.rfl

theorem ensures_give_back (len : Nat) (next : Unit → Pager → Prop) (enough : len ≤ p.resident) :
    Ensures (giveBack len) p next stopped ↔ next () { p with resident := p.resident - len } := by
  rw [giveBack]
  simp only [ensures_bind, ensures_get, if_pos enough, ensures_set]

theorem ensures_iff_of_run (x : M α) (q : Pager) (a : α) (run : x.run p = .ok a q) :
    Ensures x p ok stopped ↔ ok a q := by
  rw [Ensures, run]

theorem ensures_result (x : M α) (q : Pager) (a : α) (ensures : Ensures x p ok stopped) (run : x.run p = .ok a q) :
    ok a q := (ensures_iff_of_run p ok stopped x q a run).mp ensures

theorem ensures_failure (x : M α) (q : Pager) (halt : Halt) (ensures : Ensures x p ok stopped)
    (run : x.run p = .error halt q) : stopped halt q := by
  rw [Ensures, run] at ensures
  exact ensures

theorem ensures_ran (x : M α) (ensures : Ensures x p ok stopped) :
    Ensures x p (fun a q => ok a q ∧ x.run p = .ok a q) stopped := by
  rw [Ensures] at *
  cases run : x.run p with
  | ok a q =>
      rw [run] at ensures
      exact ⟨ensures, rfl⟩
  | error halt q =>
      rw [run] at ensures
      exact ensures

theorem returns_of_ensures (x : M α) (ensures : Ensures x p ok fun _ _ => False) : ∃ a q, x.run p = .ok a q ∧ ok a q := by
  cases run : x.run p with
  | ok a q => exact ⟨a, q, rfl, ensures_result _ _ _ _ _ _ ensures run⟩
  | error halt q => exact (ensures_failure _ _ _ _ _ _ ensures run).elim

theorem run_ok_of_ensures (x : M Unit) (q : Pager) (ensures : Ensures x p (fun _ r => r = q) fun _ _ => False) :
    x.run p = .ok () q := by
  obtain ⟨_, r, run, rfl⟩ := returns_of_ensures p _ x ensures
  exact run

theorem run_error_of_ensures (x : M α) (q : Pager) (halt : Halt)
    (ensures : Ensures x p (fun _ _ => False) fun h r => r = q ∧ h = halt) : x.run p = .error halt q := by
  cases run : x.run p with
  | ok a r => exact (ensures_result _ _ _ _ _ _ ensures run).elim
  | error h r =>
      obtain ⟨rfl, rfl⟩ := ensures_failure _ _ _ _ _ _ ensures run
      rfl

theorem check_totals_run (total : p.queuedBytes = p.resident) (within : p.resident ≤ p.settings.high) :
    checkTotals.run p = .ok () p := by
  have notAbove : ¬ p.settings.high < p.resident := Nat.not_lt.mpr within
  have ensures : Ensures checkTotals p (fun _ q => q = p) (fun _ _ => False) := by
    simp only [checkTotals, ensures_bind, ensures_get, ensures_ite, ensures_throw, ensures_pure, total, ne_eq,
      not_true_eq_false, notAbove, false_implies, not_false_eq_true, true_implies, and_self]
  exact run_ok_of_ensures p checkTotals p ensures

theorem ensures_check_totals (next : Unit → Pager → Prop) (total : p.queuedBytes = p.resident)
    (within : p.resident ≤ p.settings.high) : Ensures checkTotals p next stopped ↔ next () p :=
  ensures_iff_of_run p next stopped checkTotals p () (check_totals_run p total within)

end

theorem ensures_mono (x : M α) (p : Pager) (ok weak : α → Pager → Prop) (stopped late : Halt → Pager → Prop)
    (strong : Ensures x p ok stopped) (results : ∀ a q, ok a q → weak a q)
    (failures : ∀ halt q, stopped halt q → late halt q) : Ensures x p weak late := by
  unfold Ensures at *
  cases run : x.run p with
  | ok a q => exact results a q (by simpa [run] using strong)
  | error halt q => exact failures halt q (by simpa [run] using strong)

end DemandPaging.Pager
