import DemandPaging.Proofs.Exchange

set_option autoImplicit false

namespace DemandPaging

variable [Platform]

namespace Exchange

open Worker Mailbox

def Alert (x : Exchange) : Prop :=
  x.worker.station = .waiting →
    x.worker.mailbox.bell.isRung = true ∨ ∀ i ∈ x.worker.mailbox.queue, x.clients[i]? = some .ringing

theorem alert_elsewhere (x : Exchange) (elsewhere : x.worker.station ≠ .waiting) : x.Alert :=
  fun station => absurd station elsewhere

section

variable (x : Exchange) (sound : x.Sound) (alert : x.Alert)

include alert

theorem alert_sent (clients : x.clients.size = x.worker.mailbox.tickets.size) (request : Request) :
    (x.sent request).Alert := by
  have pushed : ∀ (stage : Stage) (i : Nat), x.clients[i]? = some .ringing → (x.clients.push stage)[i]? = some .ringing := by
    intro stage i ringing
    rw [Array.getElem?_push, if_neg (Nat.ne_of_lt (Array.getElem?_eq_some_iff.mp ringing).1), ringing]
  rw [sent]
  by_cases isOpen : x.worker.mailbox.isOpen = true
  · rw [if_pos isOpen]
    intro station
    simp only [enqueue, isOpen, if_true]
    rcases alert station with rung | ringing
    · exact Or.inl rung
    · refine Or.inr fun i member => ?_
      rcases List.mem_append.mp member with old | new
      · exact pushed _ i (ringing i old)
      · rw [List.mem_singleton.mp new, ← clients, Array.getElem?_push_size]
  · rw [if_neg isOpen]
    intro station
    simp only [enqueue, if_neg isOpen]
    rcases alert station with rung | ringing
    · exact Or.inl rung
    · exact Or.inr fun i member => pushed _ i (ringing i member)

theorem alert_received (ticket : Nat) (reply : Reply) (stage : x.clients[ticket]? = some .waiting) :
    (x.received ticket reply).Alert := by
  intro station
  rcases alert station with rung | ringing
  · exact Or.inl rung
  · refine Or.inr fun i member => ?_
    have before := ringing i member
    have other : ticket ≠ i := by
      intro same
      subst same
      cases before.symm.trans stage
    rw [received, Array.getElem?_setIfInBounds, if_neg other]
    exact before

include sound

theorem alert_advanced (host : Host) : (x.moved (x.worker.taken host) (x.worker.advance host)).Alert := by
  have stepped := advance_cases host x.worker
  generalize x.worker.advance host = w at stepped
  cases stepped with
  | idle interrupts station silent => exact alert
  | rested station nothing =>
      have empty := queue_of_nothing x sound (by simp only [Gone, station, not_false_eq_true]) nothing
      exact fun _ => Or.inr fun i member => absurd (empty ▸ member : i ∈ []) List.not_mem_nil
  | served ticket request rest after station taken serves =>
      apply alert_elsewhere
      intro waits
      cases serves with
      | answered reply q own lasts same => cases station.symm.trans waits
      | _ => cases waits
  | refused outcome ticket request rest station taken =>
      exact alert_elsewhere _ fun waits => (by cases station.symm.trans waits)
  | gone outcome station => exact alert_elsewhere _ fun waits => (by cases station.symm.trans waits)
  | _ => exact alert_elsewhere _ fun waits => (by cases waits)

theorem alert_stepped (y : Exchange) (step : Step x y) : y.Alert := by
  cases step with
  | sent request => exact alert_sent x alert sound.clients request
  | rang ticket stage => exact fun _ => Or.inl (Bell.rung_ring _)
  | received ticket reply stage told => exact alert_received x alert ticket reply stage
  | advanced host => exact alert_advanced x sound alert host
  | faulted host address serving =>
      have faulted := fault_cases host x.worker address
      generalize x.worker.fault host address = w at faulted
      cases faulted with
      | answered q same => exact alert
      | ended failure q same => exact alert_elsewhere _ fun waits => (by cases waits)
      | crashed q same => exact alert_elsewhere _ fun waits => (by cases waits)
  | failed failure serving => exact alert_elsewhere _ fun waits => (by cases waits)
  | altered address f => exact alert

end

theorem alert_of_reached (settings : Settings) (x : Exchange) (reached : Reached settings x) : x.Alert := by
  induction reached with
  | started w start =>
      obtain ⟨p, -, rfl⟩ := start_eq settings w start
      exact fun _ => Or.inr fun i member => absurd member List.not_mem_nil
  | stepped x y before step ih => exact alert_stepped x (sound_of_reached settings x before) ih y step

-- When the worker waits with requests in the queue, the bell has been rung or some client has still to ring.
theorem wakeup_of_reached (settings : Settings) (x : Exchange) (reached : Reached settings x)
    (station : x.worker.station = .waiting) (queued : x.worker.mailbox.queue ≠ []) :
    (0 < x.worker.mailbox.bell.rings ∨ ∃ i ∈ x.worker.mailbox.queue, x.clients[i]? = some .ringing) ∧
    (∀ i ∈ x.worker.mailbox.queue, x.clients[i]? ≠ some .ringing → 0 < x.worker.mailbox.bell.rings) ∧
    ((∀ i : Nat, x.clients[i]? ≠ some .ringing) → ∀ host,
      (x.worker.advance host).station = .woken ∧ ((x.worker.advance host).advance host).station = .serving ∧
      ((x.worker.advance host).advance host).mailbox.queue = x.worker.mailbox.queue) := by
  have alert := alert_of_reached settings x reached station
  obtain ⟨first, member⟩ := List.exists_mem_of_ne_nil _ queued
  have rung : ∀ i ∈ x.worker.mailbox.queue, x.clients[i]? ≠ some .ringing → x.worker.mailbox.bell.isRung = true := by
    intro i waits silent
    exact alert.resolve_right fun ringing => silent (ringing i waits)
  refine ⟨?_, fun i waits silent => of_decide_eq_true (rung i waits silent), fun all host => ?_⟩
  · rcases alert with rung | ringing
    · exact Or.inl (of_decide_eq_true rung)
    · exact Or.inr ⟨first, member, ringing first member⟩
  · have heard := rung first member (all first)
    have woken : x.worker.advance host = { x.worker with station := .woken, interrupts := 0 } := by
      simp only [advance, station, if_pos heard]
    rw [woken]
    exact ⟨rfl, rfl, rfl⟩

end Exchange

end DemandPaging

namespace DemandPaging.Exchange

open Worker

attribute [local instance] Platform.small

def oneAsked : Exchange := ((started first).sent (.free ⟨1⟩)).rang 0

theorem wakeup_of_first_request : oneAsked.worker.mailbox.queue = [0] ∧
    (oneAsked.worker.advance (Host.plain [])).station = .woken := by
  refine ⟨by decide +kernel, ?_⟩
  refine ((wakeup_of_reached .threePages oneAsked (.stepped _ _ (.stepped _ _ (.started _ start_first) (.sent _ (.free ⟨1⟩)))
    (.rang _ 0 rfl)) rfl (by decide +kernel)).2.2 (fun i ringing => ?_) _).1
  have only : i < 1 := (Array.getElem?_eq_some_iff.mp ringing).1
  obtain rfl := Nat.lt_one_iff.mp only
  cases ringing

end DemandPaging.Exchange
