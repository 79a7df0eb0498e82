import DemandPaging.Proofs.WorkerEnds
import DemandPaging.Service

set_option autoImplicit false

namespace DemandPaging

theorem SystemError.text_copy (e : SystemError) : e.copy.text = e.text := by
  cases e <;> rfl

-- Two failures that no reader can tell apart.
def Failure.Agrees (f g : Failure) : Prop := f.ctorIdx = g.ctorIdx ∧ f.report = g.report

theorem Failure.copy_agrees (f : Failure) : f.copy.Agrees f := by
  cases f with
  | resource operation cause =>
      have display : (resource operation cause.copy).message = (resource operation cause).message :=
        congrArg (fun text => operation ++ " failed: " ++ text) cause.text_copy
      refine ⟨rfl, ?_⟩
      rw [copy, report, report, display]
      rfl
  | io cause =>
      have display : (io cause.copy).message = (io cause).message :=
        congrArg (fun text => "I/O error: " ++ text) cause.text_copy
      refine ⟨rfl, ?_⟩
      rw [copy, report, report, display]
      rfl
  | _ => exact ⟨rfl, rfl⟩

namespace Outcome

def Agrees : Outcome → Outcome → Prop
  | .ok _, .ok _ => True
  | .error f, .error g => f.Agrees g
  | _, _ => False

theorem agrees_refl (outcome : Outcome) : outcome.Agrees outcome := by
  cases outcome with
  | ok _ => trivial
  | error failure => exact ⟨rfl, rfl⟩

theorem copy_agrees (outcome own : Outcome) (agrees : outcome.Agrees own) : outcome.copy.Agrees own := by
  cases outcome with
  | ok _ => exact agrees
  | error failure =>
      cases own with
      | ok _ => exact agrees
      | error other =>
          have copied := failure.copy_agrees
          exact ⟨copied.1.trans agrees.1, copied.2.trans agrees.2⟩

end Outcome

def Phase.rank : Phase → Nat
  | .uninitialized => 0
  | .running => 1
  | .shuttingDown => 2
  | .stopped => 3

theorem Phase.rank_le (phase : Phase) : phase.rank ≤ Phase.stopped.rank := by
  cases phase <;> decide

variable [Platform]

namespace Service

inductive Call where
  | setLimits (high low : Nat)
  | init
  | create (template : Template)
  | shutdown (wait : Bool)
  | await

inductive Answer where
  -- Of setting limits and of starting.
  | changed (result : Except Halt Unit)
  | created (result : Except Halt ObjectHandle)
  -- Of asking for the end and of waiting for it.
  | ended (outcome : Outcome)

-- What a call answers, and the service after it; `none` if the call never returns.
def perform (s : Service) : Call → Option (Answer × Service)
  | .setLimits high low =>
    match s.setLimits high low with
    | .ok next => some (.changed (.ok ()), next)
    | .error failure => some (.changed (.error (.failed failure)), s)
  | .init =>
    match s.init with
    | .ok next => some (.changed (.ok ()), next)
    | .error halt => some (.changed (.error halt), s)
  | .create template => some (.created (s.create template).1, (s.create template).2)
  | .shutdown wait => (s.shutdown wait).map fun (outcome, next) => (.ended outcome, next)
  | .await => s.await.map fun (outcome, next) => (.ended outcome, next)

-- The calls that were made, oldest first, while the worker went on by itself in between.
inductive Leads (s : Service) : List (Call × Answer) → Service → Prop where
  | none : Leads s [] s
  | called (past : List (Call × Answer)) (t : Service) (call : Call) (answer : Answer) (next : Service)
      (before : Leads s past t) (performed : t.perform call = some (answer, next)) :
      Leads s (past ++ [(call, answer)]) next
  | moved (past : List (Call × Answer)) (t : Service) (w v : Worker) (before : Leads s past t) (there : t.worker = some w)
      (moves : w.Moves t.host v) : Leads s past { t with worker := some v }

def limited (settings : Settings) : Call × Answer → Settings
  | (.setLimits high low, .changed (.ok _)) => settings.withLimits high low
  | _ => settings

def starts : Call × Answer → Nat
  | (.init, .changed (.ok _)) => 1
  | _ => 0

inductive Standing (host : Host) (settings : Settings) : Nat → Service → Prop where
  | fresh (nextId : Nat) : Standing host settings 0
      { host, phase := .uninitialized, settings, ending := .notStarted, nextId, worker := none }
  | unused (nextId : Nat) : Standing host settings 0
      { host, phase := .stopped, settings, ending := .notStarted, nextId, worker := none }
  | running (nextId : Nat) (w : Worker) (tidy : w.Tidy) (same : w.pager.settings = settings) : Standing host settings 1
      { host, phase := .running, settings, ending := .pending, nextId, worker := some w }
  | stopping (nextId : Nat) (w : Worker) (tidy : w.Tidy) (same : w.pager.settings = settings) (doomed : w.Doomed) :
      Standing host settings 1
        { host, phase := .shuttingDown, settings, ending := .pending, nextId, worker := some w }
  | stopped (nextId : Nat) (w : Worker) (kept own : Outcome) (tidy : w.Tidy) (same : w.pager.settings = settings)
      (ended : w.outcome? = some own) (agrees : kept.Agrees own) : Standing host settings 1
        { host, phase := .stopped, settings, ending := .collected kept, nextId, worker := some w }

section

variable (host : Host) (settings : Settings) (count : Nat) (s : Service)

theorem standing_moved (w v : Worker) (standing : Standing host settings count s) (there : s.worker = some w)
    (moves : w.Moves s.host v) : Standing host settings count { s with worker := some v } := by
  have follows := Worker.follows_of_moves s.host w v moves
  cases standing with
  | fresh nextId => cases there
  | unused nextId => cases there
  | running nextId u tidy same =>
      cases there
      exact .running nextId v (follows.tidy tidy) (follows.settings.trans same)
  | stopping nextId u tidy same doomed =>
      cases there
      exact .stopping nextId v (follows.tidy tidy) (follows.settings.trans same) (follows.doomed tidy doomed)
  | stopped nextId u kept own tidy same ended agrees =>
      cases there
      exact .stopped nextId v kept own (follows.tidy tidy) (follows.settings.trans same) (follows.outcome own ended) agrees

theorem set_limits_cases (high low : Nat) : (∃ failure, s.setLimits high low = .error failure) ∨
    (s.phase = .uninitialized ∧ s.setLimits high low = .ok { s with settings := s.settings.withLimits high low }) := by
  rw [setLimits]
  cases Settings.checkLimits high low with
  | error failure => exact Or.inl ⟨failure, rfl⟩
  | ok _ =>
      cases phase : s.phase with
      | uninitialized => exact Or.inr ⟨rfl, rfl⟩
      | _ => exact Or.inl ⟨_, rfl⟩

theorem init_cases : (∃ halt, s.init = .error halt) ∨ (s.phase = .uninitialized ∧ ∃ w, Worker.start s.settings = .ok w ∧
    s.init = .ok { s with phase := .running, ending := .pending, worker := some w }) := by
  rw [init]
  cases phase : s.phase with
  | uninitialized =>
      cases start : Worker.start s.settings with
      | error halt => exact Or.inl ⟨halt, rfl⟩
      | ok w => exact Or.inr ⟨rfl, w, rfl, rfl⟩
  | _ => exact Or.inl ⟨_, rfl⟩

theorem stop_requested_phase (phase : s.phase = .running ∨ s.phase = .shuttingDown) :
    s.requestStop.phase = .shuttingDown := by
  rcases phase with running | stopping
  · simp only [requestStop, running]
  · simp only [requestStop, stopping]

theorem changed_before_start (phase : s.phase = .uninitialized) :
    (∀ high low, low < high → ∃ next, s.perform (.setLimits high low) = some (.changed (.ok ()), next)) ∧
      ∀ w, Worker.start s.settings = .ok w →
        ∃ next, s.perform .init = some (.changed (.ok ()), next) ∧ next.worker = some w := by
  constructor
  · intro high low ordered
    have limits : Settings.checkLimits high low = .ok () := if_neg (Nat.not_le.mpr ordered)
    have made : s.setLimits high low = .ok { s with settings := s.settings.withLimits high low } := by
      rw [setLimits, limits, phase]
      rfl
    exact ⟨_, by rw [perform, made]⟩
  · intro w start
    have made : s.init = .ok { s with phase := .running, ending := .pending, worker := some w } := by
      rw [init, phase, start]
      rfl
    exact ⟨_, by rw [perform, made], rfl⟩

theorem create_elsewhere (template : Template) (elsewhere : s.phase ≠ .running) :
    ∃ halt, s.create template = (.error halt, s) := by
  rw [create]
  cases sizeOf template with
  | error halt => exact ⟨halt, rfl⟩
  | ok size =>
      cases phase : s.phase with
      | running => exact absurd phase elsewhere
      | _ =>
          simp only [channel, phase]
          exact ⟨_, rfl⟩

theorem create_running (template : Template) (w : Worker) (running : s.phase = .running) (there : s.worker = some w) :
    (∃ halt, sizeOf template = .error halt ∧ s.create template = (.error halt, s)) ∨
      ((∃ size, sizeOf template = .ok size) ∧ (s.create template).2 = { s with
        nextId := s.nextId + 1, worker := some (w.call s.host (.allocate ⟨s.nextId⟩ template)).2 }) := by
  cases size : sizeOf template with
  | error halt => exact Or.inl ⟨halt, rfl, by simp only [create, size]⟩
  | ok bytes =>
      refine Or.inr ⟨⟨bytes, rfl⟩, ?_⟩
      simp only [create, size, channel, running, call, there]
      split <;> rfl

theorem shutdown_cases (wait : Bool) : s.shutdown wait = some (.ok (), s.requestStop) ∨
    s.shutdown wait = s.requestStop.await := by
  rw [shutdown]
  cases wait <;> cases s.phase <;> simp

theorem shutdown_waits (phase : s.phase = .running ∨ s.phase = .shuttingDown) : s.shutdown true = s.requestStop.await := by
  rcases phase with running | stopping
  · simp only [shutdown, running, if_true]
  · simp only [shutdown, stopping, if_true]

theorem changed_cases (call : Call) (result : Except Halt Unit) (next : Service)
    (performed : s.perform call = some (.changed result, next)) :
    (∀ halt, result = .error halt → next = s) ∧
      (result = .ok () → s.phase = .uninitialized ∧ (call = .init → next.phase = .running)) := by
  cases call with
  | setLimits high low =>
      simp only [perform] at performed
      rcases set_limits_cases s high low with ⟨failure, refused⟩ | ⟨phase, made⟩
      · rw [refused] at performed
        cases performed
        exact ⟨fun _ _ => rfl, fun impossible => by cases impossible⟩
      · rw [made] at performed
        cases performed
        exact ⟨fun _ impossible => (by cases impossible), fun _ => ⟨phase, fun impossible => by cases impossible⟩⟩
  | init =>
      simp only [perform] at performed
      rcases init_cases s with ⟨halt, refused⟩ | ⟨phase, w, start, made⟩
      · rw [refused] at performed
        cases performed
        exact ⟨fun _ _ => rfl, fun impossible => by cases impossible⟩
      · rw [made] at performed
        cases performed
        exact ⟨fun _ impossible => (by cases impossible), fun _ => ⟨phase, fun _ => rfl⟩⟩
  | create template => cases performed
  | shutdown wait =>
      obtain ⟨_, -, same⟩ := Option.map_eq_some_iff.mp performed
      cases same
  | await =>
      obtain ⟨_, -, same⟩ := Option.map_eq_some_iff.mp performed
      cases same

structure Onward (s t : Service) : Prop where
  phase : s.phase.rank ≤ t.phase.rank
  worker : ∀ w, s.worker = some w → ∃ v, t.worker = some v ∧ w.Follows v

theorem onward_refl : Onward s s := ⟨Nat.le_refl _, fun w there => ⟨w, there, w.follows_refl⟩⟩

theorem onward_trans (t u : Service) (first : Onward s t) (second : Onward t u) : Onward s u := by
  refine ⟨Nat.le_trans first.phase second.phase, fun w there => ?_⟩
  obtain ⟨v, vThere, follows⟩ := first.worker w there
  obtain ⟨last, lastThere, further⟩ := second.worker v vThere
  exact ⟨last, lastThere, w.follows_trans v last follows further⟩

theorem onward_worker (t : Service) (w v : Worker) (there : s.worker = some w) (vThere : t.worker = some v)
    (phase : s.phase.rank ≤ t.phase.rank) (follows : w.Follows v) : Onward s t := by
  refine ⟨phase, fun u uThere => ⟨v, vThere, ?_⟩⟩
  cases there.symm.trans uThere
  exact follows

section

variable (standing : Standing host settings count s)

include standing

theorem standing_limited (high low : Nat) (phase : s.phase = .uninitialized) :
    Standing host (settings.withLimits high low) count { s with settings := s.settings.withLimits high low } := by
  cases standing with
  | fresh nextId => exact .fresh nextId
  | _ => cases phase

theorem standing_started (w : Worker) (phase : s.phase = .uninitialized) (start : Worker.start s.settings = .ok w) :
    Standing host settings (count + 1) { s with phase := .running, ending := .pending, worker := some w } ∧
      Onward s { s with phase := .running, ending := .pending, worker := some w } := by
  cases standing with
  | fresh nextId =>
      obtain ⟨tidy, same⟩ := Worker.tidy_start settings w start
      exact ⟨.running nextId w tidy same, Nat.zero_le _, fun _ impossible => by cases impossible⟩
  | _ => cases phase

theorem standing_stop_requested : Standing host settings count s.requestStop ∧ Onward s s.requestStop := by
  cases standing with
  | fresh nextId => exact ⟨.unused nextId, Nat.zero_le _, fun _ impossible => by cases impossible⟩
  | running nextId w tidy same =>
      have follows := w.follows_sent .shutdown
      refine ⟨.stopping nextId _ (follows.tidy tidy) (follows.settings.trans same) (w.doomed_of_shutdown tidy), ?_⟩
      exact onward_worker _ _ w _ rfl rfl (Nat.le_succ 1) follows
  | unused nextId => exact ⟨.unused nextId, onward_refl _⟩
  | stopping nextId w tidy same doomed => exact ⟨.stopping nextId w tidy same doomed, onward_refl _⟩
  | stopped nextId w kept own tidy same ended agrees =>
      exact ⟨.stopped nextId w kept own tidy same ended agrees, onward_refl _⟩

theorem standing_awaited (outcome : Outcome) (next : Service) (awaited : s.await = some (outcome, next)) :
    Standing host settings count next ∧ Onward s next ∧
      ∀ w, s.worker = some w → ∃ v own, next.worker = some v ∧ v.outcome? = some own ∧ outcome.Agrees own := by
  have ended : ∀ (phase : Phase) (nextId : Nat) (w : Worker), w.Tidy → w.pager.settings = settings →
      ((w.settle host).outcome?.map fun own => (own, Service.mk host .stopped settings (.collected own.copy) nextId
        (some (w.settle host)))) = some (outcome, next) →
      Standing host settings 1 next ∧ Onward (Service.mk host phase settings .pending nextId (some w)) next ∧
        ∃ v own, next.worker = some v ∧ v.outcome? = some own ∧ outcome.Agrees own := by
    intro phase nextId w tidy same told
    have follows := w.follows_run host (w.mailbox.queue.length + 6)
    obtain ⟨own, finished, result⟩ := Option.map_eq_some_iff.mp told
    cases result
    refine ⟨.stopped nextId _ _ outcome (follows.tidy tidy) (follows.settings.trans same) finished ?_, ?_,
      _, outcome, rfl, finished, outcome.agrees_refl⟩
    · exact outcome.copy_agrees outcome outcome.agrees_refl
    · exact onward_worker _ _ w _ rfl rfl phase.rank_le follows
  cases standing with
  | fresh nextId =>
      cases awaited
      exact ⟨.fresh nextId, onward_refl _, fun _ impossible => by cases impossible⟩
  | unused nextId =>
      cases awaited
      exact ⟨.unused nextId, onward_refl _, fun _ impossible => by cases impossible⟩
  | running nextId w tidy same =>
      obtain ⟨stands, onward, told⟩ := ended .running nextId w tidy same awaited
      exact ⟨stands, onward, fun _ _ => told⟩
  | stopping nextId w tidy same doomed =>
      obtain ⟨stands, onward, told⟩ := ended .shuttingDown nextId w tidy same awaited
      exact ⟨stands, onward, fun _ _ => told⟩
  | stopped nextId w kept own tidy same finished agrees =>
      cases awaited
      refine ⟨.stopped nextId w _ own tidy same finished (outcome.copy_agrees own agrees), ?_, fun u there => ?_⟩
      · exact onward_worker _ _ w w rfl rfl (Nat.le_refl _) w.follows_refl
      · cases there
        exact ⟨w, own, rfl, finished, agrees⟩

theorem settings_of_standing : s.settings = settings ∧ ∀ w, s.worker = some w → w.pager.settings = settings := by
  cases standing with
  | fresh nextId => exact ⟨rfl, fun _ impossible => by cases impossible⟩
  | unused nextId => exact ⟨rfl, fun _ impossible => by cases impossible⟩
  | running nextId w tidy same => exact ⟨rfl, fun _ there => Option.some.inj there ▸ same⟩
  | stopping nextId w tidy same doomed => exact ⟨rfl, fun _ there => Option.some.inj there ▸ same⟩
  | stopped nextId w kept own tidy same ended agrees => exact ⟨rfl, fun _ there => Option.some.inj there ▸ same⟩

theorem count_of_standing : count ≤ 1 ∧ (count = 1 ↔ ∃ w, s.worker = some w) := by
  have never : ¬ ∃ w : Worker, none = some w := fun given => (by cases given.choose_spec)
  cases standing with
  | fresh nextId => exact ⟨Nat.zero_le 1, fun impossible => (by cases impossible), fun given => absurd given never⟩
  | unused nextId => exact ⟨Nat.zero_le 1, fun impossible => (by cases impossible), fun given => absurd given never⟩
  | running nextId w tidy same => exact ⟨Nat.le_refl 1, fun _ => ⟨w, rfl⟩, fun _ => rfl⟩
  | stopping nextId w tidy same doomed => exact ⟨Nat.le_refl 1, fun _ => ⟨w, rfl⟩, fun _ => rfl⟩
  | stopped nextId w kept own tidy same ended agrees => exact ⟨Nat.le_refl 1, fun _ => ⟨w, rfl⟩, fun _ => rfl⟩

theorem worker_of_phase (phase : s.phase = .running ∨ s.phase = .shuttingDown) : ∃ w, s.worker = some w := by
  cases standing with
  | running nextId w tidy same => exact ⟨w, rfl⟩
  | stopping nextId w tidy same doomed => exact ⟨w, rfl⟩
  | _ => rcases phase with running | stopping <;> contradiction

theorem await_returns (phase : s.phase = .shuttingDown) : ∃ outcome next, s.await = some (outcome, next) := by
  cases standing with
  | stopping nextId w tidy same doomed =>
      obtain ⟨own, finished⟩ := w.settle_ends host tidy doomed
      have awaited : await { host, phase := .shuttingDown, settings, ending := .pending, nextId, worker := some w } =
          (w.settle host).outcome?.map fun own => (own, Service.mk host .stopped settings (.collected own.copy) nextId
            (some (w.settle host))) := rfl
      rw [awaited, finished]
      exact ⟨_, _, rfl⟩
  | _ => cases phase

theorem standing_created (template : Template) :
    Standing host settings count (s.create template).2 ∧ Onward s (s.create template).2 := by
  by_cases running : s.phase = .running
  · cases standing with
    | running nextId w tidy same =>
        rcases create_running (.mk host .running settings .pending nextId (some w)) template w rfl rfl with
          ⟨halt, -, created⟩ | ⟨-, created⟩
        · rw [created]
          exact ⟨.running nextId w tidy same, onward_refl _⟩
        · have follows := (w.call_worker host (.allocate ⟨nextId⟩ template)).1
          rw [created]
          refine ⟨.running (nextId + 1) _ (follows.tidy tidy) (follows.settings.trans same), ?_⟩
          exact onward_worker _ _ w _ rfl rfl (Nat.le_refl _) follows
    | _ => cases running
  · obtain ⟨halt, created⟩ := create_elsewhere s template running
    rw [created]
    exact ⟨standing, onward_refl s⟩

theorem standing_performed (call : Call) (answer : Answer) (next : Service)
    (performed : s.perform call = some (answer, next)) :
    Standing host (limited settings (call, answer)) (count + starts (call, answer)) next ∧ Onward s next := by
  cases call with
  | setLimits high low =>
      simp only [perform] at performed
      rcases set_limits_cases s high low with ⟨failure, result⟩ | ⟨phase, result⟩
      · rw [result] at performed
        cases performed
        exact ⟨standing, onward_refl s⟩
      · rw [result] at performed
        cases performed
        exact ⟨standing_limited host settings count s standing high low phase, Nat.le_refl _,
          fun w there => ⟨w, there, w.follows_refl⟩⟩
  | init =>
      simp only [perform] at performed
      rcases init_cases s with ⟨halt, result⟩ | ⟨phase, w, start, result⟩
      · rw [result] at performed
        cases performed
        exact ⟨standing, onward_refl s⟩
      · rw [result] at performed
        cases performed
        exact standing_started host settings count s standing w phase start
  | create template =>
      simp only [perform] at performed
      cases performed
      exact standing_created host settings count s standing template
  | shutdown wait =>
      obtain ⟨⟨outcome, after⟩, result, same⟩ := Option.map_eq_some_iff.mp performed
      cases same
      obtain ⟨stopping, requested⟩ := standing_stop_requested host settings count s standing
      rcases shutdown_cases s wait with now | later
      · rw [now] at result
        cases result
        exact ⟨stopping, requested⟩
      · rw [later] at result
        obtain ⟨stands, awaited, -⟩ := standing_awaited host settings count _ stopping outcome next result
        exact ⟨stands, onward_trans _ _ _ requested awaited⟩
  | await =>
      obtain ⟨⟨outcome, after⟩, result, same⟩ := Option.map_eq_some_iff.mp performed
      cases same
      obtain ⟨stands, onward, -⟩ := standing_awaited host settings count s standing outcome next result
      exact ⟨stands, onward⟩

end

end

def limits (initial : Settings) (past : List (Call × Answer)) : Settings := past.foldl limited initial

def startCount (past : List (Call × Answer)) : Nat := (past.map starts).sum

theorem standing_of_leads (host : Host) (initial : Settings) (past : List (Call × Answer)) (s : Service)
    (leads : Leads (new host initial) past s) : Standing host (limits initial past) (startCount past) s := by
  induction leads with
  | none => exact .fresh 1
  | called past t call answer next before performed ih =>
      rw [limits, startCount, List.foldl_append, List.map_append, List.sum_append]
      exact (standing_performed host _ _ t ih call answer next performed).1
  | moved past t w v before there moves ih => exact standing_moved host _ _ t w v ih there moves

theorem onward_of_leads (host : Host) (settings : Settings) (count : Nat) (s t : Service) (later : List (Call × Answer))
    (standing : Standing host settings count s) (leads : Leads s later t) : Onward s t := by
  have both : (∃ settings count, Standing host settings count t) ∧ Onward s t := by
    induction leads with
    | none => exact ⟨⟨settings, count, standing⟩, onward_refl s⟩
    | called past t call answer next before performed ih =>
        obtain ⟨⟨these, times, stands⟩, onward⟩ := ih
        obtain ⟨further, goesOn⟩ := standing_performed host these times t stands call answer next performed
        exact ⟨⟨_, _, further⟩, onward_trans _ _ _ onward goesOn⟩
    | moved past t w v before there moves ih =>
        obtain ⟨⟨these, times, stands⟩, onward⟩ := ih
        refine ⟨⟨these, times, standing_moved host these times t w v stands there moves⟩, onward_trans _ _ _ onward ?_⟩
        exact onward_worker _ _ w v there rfl (Nat.le_refl _) (Worker.follows_of_moves t.host w v moves)
  exact both.2

-- Everyone who waits for the end of the worker and gets an answer is told its own outcome, or one that cannot be told from
-- it.
theorem lifecycle_of_leads (host : Host) (initial : Settings) (past : List (Call × Answer)) (s : Service)
    (leads : Leads (new host initial) past s) :
    (startCount past ≤ 1 ∧ (startCount past = 1 ↔ ∃ w, s.worker = some w)) ∧
    (s.settings = limits initial past ∧ ∀ w, s.worker = some w → w.pager.settings = limits initial past) ∧
    (∀ later t, Leads s later t → s.phase.rank ≤ t.phase.rank ∧
      ∀ w, s.worker = some w → ∃ v, t.worker = some v ∧ v.pager.settings = w.pager.settings ∧
        ∀ own, w.outcome? = some own → v.outcome? = some own) ∧
    (∀ call result next, s.perform call = some (.changed result, next) →
      (∀ halt, result = .error halt → next = s) ∧
      (result = .ok () → s.phase = .uninitialized ∧ (call = .init → next.phase = .running))) ∧
    (s.phase = .uninitialized →
      (∀ high low, low < high → ∃ next, s.perform (.setLimits high low) = some (.changed (.ok ()), next)) ∧
      ∀ w, Worker.start s.settings = .ok w →
        ∃ next, s.perform .init = some (.changed (.ok ()), next) ∧ next.worker = some w) ∧
    (∀ template, (s.phase ≠ .running → ∃ halt, s.create template = (.error halt, s)) ∧
      (s.phase = .running → (∃ halt, sizeOf template = .error halt ∧ s.create template = (.error halt, s)) ∨
        ∃ w v, s.worker = some w ∧ (s.create template).2 = { s with nextId := s.nextId + 1, worker := some v } ∧
          v.mailbox.tickets.size = w.mailbox.tickets.size + 1 ∧
          v.mailbox.asked w.mailbox.tickets.size = some (.allocate ⟨s.nextId⟩ template))) ∧
    (startCount past = 1 → ∀ outcome next, s.await = some (outcome, next) →
      ∃ v own, next.worker = some v ∧ v.outcome? = some own ∧ outcome.Agrees own) ∧
    (s.phase = .running ∨ s.phase = .shuttingDown → ∃ outcome next v own, s.shutdown true = some (outcome, next) ∧
      next.worker = some v ∧ v.outcome? = some own ∧ outcome.Agrees own) := by
  have standing := standing_of_leads host initial past s leads
  have started := count_of_standing host _ _ s standing
  refine ⟨started, settings_of_standing host _ _ s standing, fun later t further => ?_,
    fun call result next performed => changed_cases s call result next performed, changed_before_start s,
    fun template => ⟨create_elsewhere s template, fun running => ?_⟩, fun once outcome next awaited => ?_, fun phase => ?_⟩
  · have onward := onward_of_leads host _ _ s t later standing further
    refine ⟨onward.phase, fun w there => ?_⟩
    obtain ⟨v, vThere, follows⟩ := onward.worker w there
    exact ⟨v, vThere, follows.settings, follows.outcome⟩
  · obtain ⟨w, there⟩ := worker_of_phase host _ _ s standing (Or.inl running)
    rcases create_running s template w running there with refused | ⟨-, created⟩
    · exact Or.inl refused
    · obtain ⟨-, asked⟩ := w.call_worker s.host (.allocate ⟨s.nextId⟩ template)
      refine Or.inr ⟨w, _, there, created, ?_, (asked _).trans (if_pos rfl)⟩
      have same : ∀ i, _ = (w.mailbox.enqueue (.allocate ⟨s.nextId⟩ template)).asked i := fun i =>
        (asked i).trans (Mailbox.asked_enqueue w.mailbox _ i).symm
      exact (Mailbox.size_of_asked _ _ same).trans (Mailbox.size_enqueue w.mailbox _)
  · obtain ⟨w, there⟩ := started.2.mp once
    obtain ⟨-, -, told⟩ := standing_awaited host _ _ s standing outcome next awaited
    exact told w there
  · obtain ⟨stopping, -⟩ := standing_stop_requested host _ _ s standing
    have phaseStopping := stop_requested_phase s phase
    obtain ⟨outcome, next, awaited⟩ := await_returns host _ _ _ stopping phaseStopping
    obtain ⟨-, -, told⟩ := standing_awaited host _ _ _ stopping outcome next awaited
    obtain ⟨w, there⟩ := worker_of_phase host _ _ _ stopping (Or.inr phaseStopping)
    obtain ⟨v, own, vThere, ended, agrees⟩ := told w there
    exact ⟨outcome, next, v, own, (shutdown_waits s phase).trans awaited, vThere, ended, agrees⟩

end Service

end DemandPaging

namespace DemandPaging.Service

attribute [local instance] Platform.small

theorem lifecycle_of_first_start : ∃ s, Leads (new (Host.plain []) .threePages) [(.init, .changed (.ok ()))] s ∧
    s.phase = .running ∧ ∃ outcome next v own, s.shutdown true = some (outcome, next) ∧ next.worker = some v ∧
      v.outcome? = some own ∧ outcome.Agrees own := by
  have leads : Leads (new (Host.plain []) .threePages) ([] ++ [(.init, .changed (.ok ()))]) _ :=
    .called [] _ .init (.changed (.ok ())) _ .none rfl
  exact ⟨_, leads, rfl, (lifecycle_of_leads _ _ _ _ leads).2.2.2.2.2.2.2 (Or.inl rfl)⟩

end DemandPaging.Service
