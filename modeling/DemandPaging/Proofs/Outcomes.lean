import DemandPaging.Proofs.Wakeups
import DemandPaging.Proofs.WorkerEnds

set_option autoImplicit false

namespace DemandPaging

variable [Platform]

namespace Worker

open Mailbox

theorem ended_advance (host : Host) (w : Worker) (ended : ¬ w.Serving) :
    ¬ (w.advance host).Serving ∧ (w.advance host).pager = w.pager ∧ ∀ a ∈ w.taken host, a.2 = .refused := by
  have stepped := advance_cases host w
  generalize w.advance host = v at stepped
  cases stepped with
  | idle interrupts station silent => exact absurd (by simp only [Serving, station]) ended
  | broken cause station silent strict => exact absurd (by simp only [Serving, station]) ended
  | woken station rung => exact absurd (by simp only [Serving, station]) ended
  | silenced station => exact absurd (by simp only [Serving, station]) ended
  | rested station nothing => exact absurd (by simp only [Serving, station]) ended
  | served ticket request rest after station taken serves => exact absurd (by simp only [Serving, station]) ended
  | refused outcome ticket request rest station taken =>
      refine ⟨by simp only [Serving, station, not_false_eq_true], rfl, fun a member => ?_⟩
      simp only [Worker.taken, station, taken, List.mem_singleton] at member
      rw [member]
  | emptied outcome station nothing =>
      refine ⟨id, rfl, fun a member => ?_⟩
      simp only [taken, station, nothing, List.not_mem_nil] at member
  | closed outcome station =>
      refine ⟨id, rfl, fun a member => ?_⟩
      simp only [taken, station, List.not_mem_nil] at member
  | gone outcome station =>
      refine ⟨ended, rfl, fun a member => ?_⟩
      simp only [taken, station, List.not_mem_nil] at member

-- The number of steps that a worker takes at most until its queue is empty, once it has been rung for.
def busy (w : Worker) : Nat :=
  match w.station with
  | .waiting => w.mailbox.queue.length + 2
  | .woken => w.mailbox.queue.length + 1
  | _ => w.mailbox.queue.length

theorem length_le_busy (w : Worker) : w.mailbox.queue.length ≤ w.busy := by
  rw [busy]
  split <;> omega

theorem busy_le (w : Worker) : w.busy ≤ w.mailbox.queue.length + 2 := by
  rw [busy]
  split <;> omega

theorem empty_advance (host : Host) (w : Worker) (empty : w.mailbox.queue = []) : (w.advance host).mailbox.queue = [] := by
  have nothing : w.mailbox.next = none := by simp only [next, empty]
  have stepped := advance_cases host w
  generalize w.advance host = v at stepped
  cases stepped with
  | served ticket request rest after station taken serves => cases nothing.symm.trans taken
  | refused outcome ticket request rest station taken => cases nothing.symm.trans taken
  | closed outcome station => rfl
  | _ => exact empty

theorem empty_run (host : Host) (steps : Nat) (w : Worker) (empty : w.mailbox.queue = []) :
    (w.run host steps).mailbox.queue = [] := by
  induction steps generalizing w with
  | zero => exact empty
  | succ steps ih => exact ih _ (empty_advance host w empty)

end Worker

namespace Exchange

open Worker Mailbox

structure Later (x y : Exchange) : Prop where
  ends : ∃ later, y.ends = x.ends ++ later ∧ (¬ x.worker.Serving → ∀ a ∈ later, a.2.Late)
  ended : ¬ x.worker.Serving → ¬ y.worker.Serving
  asked : ∀ i request, x.worker.mailbox.asked i = some request → y.worker.mailbox.asked i = some request

theorem later_refl (x : Exchange) : Later x x :=
  ⟨⟨[], (List.append_nil _).symm, fun _ _ impossible => (List.not_mem_nil impossible).elim⟩, id, fun _ _ asked => asked⟩

theorem later_trans (x y z : Exchange) (first : Later x y) (second : Later y z) : Later x z := by
  obtain ⟨new, newEnds, newLate⟩ := first.ends
  obtain ⟨newer, newerEnds, newerLate⟩ := second.ends
  refine ⟨⟨new ++ newer, ?_, fun ended a member => ?_⟩, second.ended ∘ first.ended,
    fun i request asked => second.asked i request (first.asked i request asked)⟩
  · rw [newerEnds, newEnds, List.append_assoc]
  · rcases List.mem_append.mp member with before | after
    · exact newLate ended a before
    · exact newerLate (first.ended ended) a after

theorem later_moved (x : Exchange) (taken : List (Nat × End)) (w : Worker)
    (late : ¬ x.worker.Serving → ¬ w.Serving ∧ ∀ a ∈ taken, a.2.Late)
    (asked : ∀ i, w.mailbox.asked i = x.worker.mailbox.asked i) : Later x (x.moved taken w) := by
  refine ⟨⟨_, List.append_assoc _ _ _, fun ended a member => ?_⟩, fun ended => (late ended).1,
    fun i request before => (asked i).trans before⟩
  rcases List.mem_append.mp member with out | lost
  · exact (late ended).2 a out
  · split at lost
    · cases lost
    · obtain ⟨i, -, rfl⟩ := List.mem_map.mp lost
      exact Or.inr (Or.inl rfl)

theorem later_stepped (x y : Exchange) (step : Step x y) : Later x y := by
  have nothing : ∀ a ∈ ([] : List (Nat × End)), a.2.Late := fun _ impossible => (List.not_mem_nil impossible).elim
  cases step with
  | sent request =>
      have asked : ∀ i was, x.worker.mailbox.asked i = some was → (x.worker.mailbox.enqueue request).asked i = some was := by
        intro i was before
        rw [asked_enqueue, if_neg (Nat.ne_of_lt (asked_lt _ was i before)), before]
      rw [sent]
      by_cases isOpen : x.worker.mailbox.isOpen = true
      · rw [if_pos isOpen]
        exact ⟨(later_refl x).ends, id, asked⟩
      · rw [if_neg isOpen]
        refine ⟨⟨_, rfl, fun _ a member => ?_⟩, id, asked⟩
        rw [List.mem_singleton.mp member]
        exact Or.inr (Or.inr rfl)
  | rang ticket stage =>
      exact ⟨(later_refl x).ends, id, fun _ _ asked => asked⟩
  | received ticket reply stage told =>
      exact ⟨(later_refl x).ends, id, fun _ _ asked => asked⟩
  | advanced host =>
      refine later_moved x _ _ (fun ended => ?_) (asked_advance host x.worker)
      obtain ⟨still, -, refused⟩ := ended_advance host x.worker ended
      exact ⟨still, fun a member => Or.inl (refused a member)⟩
  | faulted host address serving =>
      exact later_moved x _ _ (fun ended => absurd serving ended) (asked_fault host x.worker address)
  | failed failure serving => exact later_moved x _ _ (fun ended => absurd serving ended) fun _ => rfl
  | altered address f => exact later_moved x _ _ (fun ended => ⟨ended, nothing⟩) fun _ => rfl

theorem later_of_run (x y : Exchange) (run : Relation.ReflTransGen Step x y) : Later x y := by
  induction run with
  | refl => exact later_refl x
  | tail _ step ih => exact later_trans _ _ _ ih (later_stepped _ _ step)

section

variable (x : Exchange) (sound : x.Sound)

include sound

theorem busy_advanced (host : Host) (alert : x.Alert) (rung : ∀ i : Nat, x.clients[i]? ≠ some .ringing)
    (queued : x.worker.mailbox.queue ≠ []) : (x.worker.advance host).busy < x.worker.busy := by
  have some := List.length_pos_iff.mpr queued
  have heard : x.worker.station = .waiting → x.worker.mailbox.bell.isRung = true := by
    intro station
    obtain ⟨first, member⟩ := List.exists_mem_of_ne_nil _ queued
    exact (alert station).resolve_right fun ringing => rung first (ringing first member)
  have stepped := advance_cases host x.worker
  generalize x.worker.advance host = w at stepped
  cases stepped with
  | idle interrupts station silent => cases silent.symm.trans (heard station)
  | broken cause station silent strict => cases silent.symm.trans (heard station)
  | woken station heard =>
      simp only [busy, station]
      omega
  | silenced station =>
      simp only [busy, station]
      omega
  | rested station nothing =>
      exact absurd (queue_of_nothing x sound (by simp only [Gone, station, not_false_eq_true]) nothing) queued
  | served ticket request rest after station taken serves =>
      have shorter := fun progress => shorter_of_next x.worker.mailbox rest ticket request progress taken
      cases serves with
      | answered reply q own lasts same =>
          simp only [busy, station]
          exact shorter (.answered reply)
      | ended failure q own ends same =>
          simp only [busy, station]
          exact shorter (.answered (.failed failure))
      | stopped asked =>
          simp only [busy, station]
          exact shorter .dropped
      | crashed q other none same =>
          simp only [busy, station]
          exact some
  | refused outcome ticket request rest station taken =>
      simp only [busy, station, refuse_eq]
      exact shorter_of_next x.worker.mailbox rest ticket request _ taken
  | emptied outcome station nothing =>
      exact absurd (queue_of_nothing x sound (by simp only [Gone, station, not_false_eq_true]) nothing) queued
  | closed outcome station =>
      simp only [busy, station]
      exact some
  | gone outcome station =>
      have closed := sound.gone.mpr (by simp only [Gone, station])
      exact absurd (sound.accounts.gone closed).1 queued

theorem run_drains (host : Host) (steps : Nat) (alert : x.Alert) (rung : ∀ i : Nat, x.clients[i]? ≠ some .ringing)
    (enough : x.worker.busy ≤ steps) : (x.run host steps).worker.mailbox.queue = [] := by
  induction steps generalizing x with
  | zero =>
      have bound := x.worker.length_le_busy
      have empty : x.worker.mailbox.queue = [] := List.eq_nil_of_length_eq_zero (by omega)
      exact empty
  | succ steps ih =>
      by_cases empty : x.worker.mailbox.queue = []
      · rw [(run_worker host (steps + 1) x).1]
        exact empty_run host (steps + 1) x.worker empty
      · have closer := busy_advanced x sound host alert rung empty
        have advanced := Step.advanced x host
        exact ih _ (sound_stepped x sound _ advanced) (alert_stepped x sound alert _ advanced) rung (by
          simp only [moved]
          omega)

theorem end_of_drained (drained : x.worker.mailbox.queue = []) (i : Nat) (inside : i < x.worker.mailbox.tickets.size) :
    ∃ e, (i, e) ∈ x.ends := by
  apply end_of_lt _ _ sound.accounts
  by_cases isOpen : x.worker.mailbox.isOpen = true
  · have queue := (sound.accounts.line isOpen).queue
    rw [drained, eq_comm, List.range'_eq_nil_iff] at queue
    omega
  · obtain ⟨-, whole⟩ := sound.accounts.gone (Bool.eq_false_iff.mpr isOpen)
    omega

end

end Exchange

end DemandPaging

namespace DemandPaging.Exchange

open Worker

attribute [local instance] Platform.small

-- A request that came behind a request to stop.
def stopped : Exchange := run (Host.plain []) 6 ((((started first).sent .shutdown).sent (.free ⟨1⟩)).rang 0)

end DemandPaging.Exchange
