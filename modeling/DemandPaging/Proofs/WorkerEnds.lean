import DemandPaging.Proofs.WorkerSteps

set_option autoImplicit false

namespace DemandPaging.Worker

variable [Platform]

open Pager Mailbox

structure Tidy (w : Worker) : Prop where
  queued : ∀ i ∈ w.mailbox.queue, i < w.mailbox.tickets.size
  isOpen : w.Serving → w.mailbox.isOpen = true

-- A worker that ends without anyone doing anything: if it serves, a shutdown is queued, and it does not sleep over it.
def Doomed (w : Worker) : Prop :=
  w.Serving → (∃ i ∈ w.mailbox.queue, w.mailbox.asked i = some .shutdown) ∧
    (w.station = .waiting → w.mailbox.bell.isRung = true)

structure Follows (w v : Worker) : Prop where
  settings : v.pager.settings = w.pager.settings
  tidy : w.Tidy → v.Tidy
  doomed : w.Tidy → w.Doomed → v.Doomed
  outcome : ∀ own, w.outcome? = some own → v.outcome? = some own

theorem follows_refl (w : Worker) : Follows w w := ⟨rfl, id, fun _ => id, fun _ => id⟩

theorem follows_trans (w v u : Worker) (first : Follows w v) (second : Follows v u) : Follows w u :=
  ⟨second.settings.trans first.settings, fun tidy => second.tidy (first.tidy tidy),
    fun tidy doomed => second.doomed (first.tidy tidy) (first.doomed tidy doomed),
    fun own ended => second.outcome own (first.outcome own ended)⟩

theorem not_serving_of_outcome (w : Worker) (own : Outcome) (ended : w.outcome? = some own) : ¬ w.Serving := by
  obtain ⟨pager, mailbox, station, interrupts⟩ := w
  cases station with
  | closed outcome => exact id
  | _ => cases ended

theorem outcome_of_serving (w : Worker) (serving : w.Serving) : w.outcome? = none := by
  cases ended : w.outcome? with
  | none => rfl
  | some own => exact absurd serving (not_serving_of_outcome w own ended)

section

variable (w v : Worker)

theorem follows_ended (running : w.outcome? = none) (ended : ¬ v.Serving) (settings : v.pager.settings = w.pager.settings)
    (queued : w.Tidy → ∀ i ∈ v.mailbox.queue, i < v.mailbox.tickets.size) : Follows w v := by
  refine ⟨settings, fun tidy => ⟨queued tidy, fun again => absurd again ended⟩, fun _ _ again => absurd again ended,
    fun own already => ?_⟩
  rw [running] at already
  cases already

theorem queued_settled (ticket : Nat) (progress : Progress) (settled : w.mailbox.Settled ticket progress v.mailbox)
    (tidy : w.Tidy) : ∀ i ∈ v.mailbox.queue, i < v.mailbox.tickets.size := by
  intro i member
  rw [settled.queue] at member
  rw [size_settled _ _ _ _ settled]
  exact tidy.queued i (List.mem_of_mem_tail member)

end

theorem follows_awake (w : Worker) (bell : Bell) (station : Station) (interrupts : Nat) (serving : w.Serving)
    (awake : station ≠ .waiting) :
    Follows w { pager := w.pager, mailbox := { w.mailbox with bell }, station, interrupts } :=
  ⟨rfl, fun tidy => ⟨tidy.queued, fun _ => tidy.isOpen serving⟩,
    fun _ doomed _ => ⟨(doomed serving).1, fun waits => absurd waits awake⟩,
    fun own ended => absurd serving (not_serving_of_outcome w own ended)⟩

theorem next_of_queued (w : Worker) (tidy : w.Tidy) (i : Nat) (member : i ∈ w.mailbox.queue) : w.mailbox.next ≠ none := by
  cases queue : w.mailbox.queue with
  | nil =>
      rw [queue] at member
      cases member
  | cons front rest =>
      have inside := tidy.queued front (queue ▸ List.mem_cons_self)
      simp only [next, queue, Array.getElem?_eq_getElem inside, Option.map_some, ne_eq, reduceCtorEq, not_false_eq_true]

theorem follows_served (host : Host) (w v : Worker) (ticket : Nat) (request : Request) (rest : Mailbox)
    (station : w.station = .serving) (taken : w.mailbox.next = some (ticket, request, rest))
    (serves : Serves host { w with mailbox := rest } ticket request v) : Follows w v := by
  have serving : w.Serving := by simp only [Serving, station]
  cases serves with
  | answered reply q own lasts same =>
      obtain ⟨queue, asked, settled⟩ := settled_of_next w.mailbox rest ticket request (.answered reply) taken
      refine ⟨same, fun tidy => ⟨?_, fun _ => settled.isOpen.trans (tidy.isOpen serving)⟩, fun tidy doomed _ => ?_,
        fun own ended => absurd serving (not_serving_of_outcome w own ended)⟩
      · exact queued_settled w _ ticket _ settled tidy
      · obtain ⟨⟨i, member, shutdown⟩, -⟩ := doomed serving
        refine ⟨⟨i, ?_, ?_⟩, fun waits => ?_⟩
        · -- The shutdown is still queued, since something else was served.
          rw [queue] at member
          rcases List.mem_cons.mp member with first | later
          · subst first
            cases asked.symm.trans shutdown
            cases own
          · exact settled.queue ▸ later
        · exact (asked_settled _ _ ticket _ settled i).trans shutdown
        · cases station.symm.trans waits
  | ended failure q own ends same =>
      obtain ⟨-, -, settled⟩ := settled_of_next w.mailbox rest ticket request (.answered (.failed failure)) taken
      exact follows_ended w _ (outcome_of_serving w serving) id same (queued_settled w _ ticket _ settled)
  | stopped asked =>
      obtain ⟨-, -, settled⟩ := settled_of_next w.mailbox rest ticket request .dropped taken
      exact follows_ended w _ (outcome_of_serving w serving) id rfl (queued_settled w _ ticket _ settled)
  | crashed q other none same =>
      exact follows_ended w _ (outcome_of_serving w serving) id same fun _ i member => absurd member List.not_mem_nil

theorem follows_advance (host : Host) (w : Worker) : Follows w (w.advance host) := by
  have stepped := advance_cases host w
  generalize w.advance host = v at stepped
  cases stepped with
  | idle interrupts station silent =>
      have serving : w.Serving := by simp only [Serving, station]
      refine ⟨rfl, fun tidy => ⟨tidy.queued, fun _ => tidy.isOpen serving⟩, fun _ doomed _ => ?_,
        fun own ended => absurd serving (not_serving_of_outcome w own ended)⟩
      exact ⟨(doomed serving).1, fun _ => (doomed serving).2 station⟩
  | broken cause station silent strict =>
      have serving : w.Serving := by simp only [Serving, station]
      exact follows_ended w _ (outcome_of_serving w serving) id rfl fun tidy => tidy.queued
  | woken station rung =>
      exact follows_awake w w.mailbox.bell .woken 0 (by simp only [Serving, station]) Station.noConfusion
  | silenced station =>
      exact follows_awake w .silent .serving w.interrupts (by simp only [Serving, station]) Station.noConfusion
  | rested station nothing =>
      have serving : w.Serving := by simp only [Serving, station]
      refine ⟨rfl, fun tidy => ⟨tidy.queued, fun _ => tidy.isOpen serving⟩, fun tidy doomed _ => ?_,
        fun own ended => absurd serving (not_serving_of_outcome w own ended)⟩
      obtain ⟨⟨i, member, -⟩, -⟩ := doomed serving
      exact absurd nothing (next_of_queued w tidy i member)
  | served ticket request rest after station taken serves =>
      exact follows_served host w v ticket request rest station taken serves
  | refused outcome ticket request rest station taken =>
      refine follows_ended w _ (by simp only [outcome?, station]) (by simp only [Serving, station, not_false_eq_true]) rfl ?_
      obtain ⟨-, -, settled⟩ := settled_of_next w.mailbox rest ticket request (.ofRefusal request) taken
      rw [refuse_eq]
      exact queued_settled w { w with mailbox := _ } ticket _ settled
  | emptied outcome station nothing =>
      exact follows_ended w _ (by simp only [outcome?, station]) id rfl fun tidy => tidy.queued
  | closed outcome station =>
      exact follows_ended w _ (by simp only [outcome?, station]) id rfl fun _ i member => absurd member List.not_mem_nil
  | gone outcome station => exact follows_refl w

inductive Moves (host : Host) (w : Worker) : Worker → Prop where
  | advanced : Moves host w (w.advance host)
  | faulted (address : Nat) (serving : w.Serving) : Moves host w (w.fault host address)
  | failed (failure : Failure) (serving : w.Serving) : Moves host w (w.finish (.error failure))
  | enqueued (request : Request) : Moves host w { w with mailbox := w.mailbox.enqueue request }
  | rang : Moves host w { w with mailbox := w.mailbox.ring }
  | altered (address : Nat) (f : Mapping → Mapping) : Moves host w (w.modifyMapping address f)

theorem follows_enqueued (w : Worker) (request : Request) : Follows w { w with mailbox := w.mailbox.enqueue request } := by
  have old : ∀ i ∈ w.mailbox.queue, i ∈ (w.mailbox.enqueue request).queue := by
    intro i member
    rw [enqueue]
    split
    · exact List.mem_append_left _ member
    · exact member
  refine ⟨rfl, fun tidy => ⟨fun i member => ?_, fun serving => (open_enqueue _ request).trans (tidy.isOpen serving)⟩,
    fun tidy doomed serving => ?_, fun own ended => ended⟩
  · rw [size_enqueue]
    simp only [enqueue] at member
    split at member
    · rcases List.mem_append.mp member with before | new
      · exact Nat.lt_succ_of_lt (tidy.queued i before)
      · exact List.mem_singleton.mp new ▸ Nat.lt_succ_self _
    · exact Nat.lt_succ_of_lt (tidy.queued i member)
  · obtain ⟨⟨i, member, shutdown⟩, awake⟩ := doomed serving
    refine ⟨⟨i, old i member, ?_⟩, fun waits => ?_⟩
    · rw [asked_enqueue, if_neg (Nat.ne_of_lt (tidy.queued i member)), shutdown]
    · have rung := awake waits
      simp only [enqueue]
      split
      · exact rung
      · exact rung

theorem follows_rang (w : Worker) : Follows w { w with mailbox := w.mailbox.ring } :=
  ⟨rfl, fun tidy => ⟨tidy.queued, tidy.isOpen⟩,
    fun _ doomed serving => ⟨(doomed serving).1, fun _ => Bell.rung_ring w.mailbox.bell⟩, fun _ ended => ended⟩

theorem follows_of_moves (host : Host) (w v : Worker) (moves : Moves host w v) : Follows w v := by
  cases moves with
  | advanced => exact follows_advance host w
  | faulted address serving =>
      have faulted := fault_cases host w address
      generalize w.fault host address = v at faulted
      cases faulted with
      | answered q same => exact ⟨same, fun tidy => ⟨tidy.queued, tidy.isOpen⟩, fun _ => id, fun _ => id⟩
      | ended failure q same =>
          exact follows_ended w _ (outcome_of_serving w serving) id same fun tidy => tidy.queued
      | crashed q same =>
          exact follows_ended w _ (outcome_of_serving w serving) id same fun _ i member => absurd member List.not_mem_nil
  | failed failure serving => exact follows_ended w _ (outcome_of_serving w serving) id rfl fun tidy => tidy.queued
  | enqueued request => exact follows_enqueued w request
  | rang => exact follows_rang w
  | altered address f => exact ⟨rfl, fun tidy => ⟨tidy.queued, tidy.isOpen⟩, fun _ => id, fun _ => id⟩

theorem follows_run (host : Host) (steps : Nat) (w : Worker) : Follows w (run host steps w) := by
  induction steps generalizing w with
  | zero => exact follows_refl w
  | succ steps ih => exact follows_trans _ _ _ (follows_advance host w) (ih _)

theorem asked_run (host : Host) (steps : Nat) (w : Worker) (i : Nat) :
    (run host steps w).mailbox.asked i = w.mailbox.asked i := by
  induction steps generalizing w with
  | zero => rfl
  | succ steps ih => exact (ih _).trans (asked_advance host w i)

theorem follows_sent (w : Worker) (request : Request) : Follows w (w.send request).2 := by
  have enqueued := follows_enqueued w request
  simp only [send, Mailbox.send]
  split
  · exact follows_trans _ _ _ enqueued (follows_rang _)
  · exact enqueued

theorem call_worker (host : Host) (w : Worker) (request : Request) : Follows w (w.call host request).2 ∧
    ∀ i, (w.call host request).2.mailbox.asked i = if i = w.mailbox.tickets.size then some request else w.mailbox.asked i := by
  have follows := follows_sent w request
  have asked : ∀ i, (w.send request).2.mailbox.asked i = _ := asked_send w.mailbox request
  rw [call]
  rcases sent : w.send request with ⟨result, v⟩
  rw [sent] at follows asked
  cases result with
  | error failure => exact ⟨follows, asked⟩
  | ok _ =>
      exact ⟨follows_trans _ _ _ follows (follows_run host _ v), fun i => (asked_run host _ v i).trans (asked i)⟩

theorem tidy_start (settings : Settings) (w : Worker) (start : Worker.start settings = .ok w) :
    w.Tidy ∧ w.pager.settings = settings := by
  obtain ⟨p, started, rfl⟩ := start_eq settings w start
  exact ⟨⟨fun _ member => absurd member List.not_mem_nil, fun _ => rfl⟩, settings_start settings p started⟩

theorem doomed_of_shutdown (w : Worker) (tidy : w.Tidy) : (w.send .shutdown).2.Doomed := by
  intro serving
  have isOpen := tidy.isOpen serving
  have queue : (w.send .shutdown).2.mailbox.queue = w.mailbox.queue ++ [w.mailbox.tickets.size] := by
    simp only [send, Mailbox.send, enqueue, ring, isOpen, if_true]
  refine ⟨⟨w.mailbox.tickets.size, ?_, ?_⟩, fun _ => ?_⟩
  · rw [queue]
    exact List.mem_append_right _ List.mem_cons_self
  · exact (asked_send w.mailbox .shutdown _).trans (if_pos rfl)
  · simp only [send, Mailbox.send, if_pos isOpen, ring]
    exact Bell.rung_ring _

def left (w : Worker) : Nat :=
  match w.station with
  | .waiting => w.mailbox.queue.length + 4
  | .woken => w.mailbox.queue.length + 3
  | .serving | .refusing _ => w.mailbox.queue.length + 2
  | .closing _ => 1
  | .closed _ => 0

theorem shorter_of_next (m rest : Mailbox) (ticket : Nat) (request : Request) (progress : Progress)
    (taken : m.next = some (ticket, request, rest)) : (rest.setProgress ticket progress).queue.length < m.queue.length := by
  obtain ⟨queue, -, settled⟩ := settled_of_next m rest ticket request progress taken
  rw [settled.queue, queue]
  exact Nat.lt_succ_self _

theorem left_served (host : Host) (w v : Worker) (ticket : Nat) (request : Request) (rest : Mailbox)
    (station : w.station = .serving) (taken : w.mailbox.next = some (ticket, request, rest))
    (serves : Serves host { w with mailbox := rest } ticket request v) : v.left < w.left := by
  have shorter := fun progress => shorter_of_next w.mailbox rest ticket request progress taken
  cases serves with
  | answered reply q own lasts same =>
      simp only [left, station]
      exact Nat.add_lt_add_right (shorter (.answered reply)) 2
  | ended failure q own ends same =>
      simp only [left, station]
      exact Nat.add_lt_add_right (shorter (.answered (.failed failure))) 2
  | stopped asked =>
      simp only [left, station]
      exact Nat.add_lt_add_right (shorter .dropped) 2
  | crashed q other none same =>
      simp only [left, station, crash]
      omega

theorem left_advance (host : Host) (w : Worker) (tidy : w.Tidy) (doomed : w.Doomed) (running : w.outcome? = none) :
    (w.advance host).left < w.left := by
  have stepped := advance_cases host w
  generalize w.advance host = v at stepped
  cases stepped with
  | idle interrupts station silent => cases silent.symm.trans ((doomed (by simp only [Serving, station])).2 station)
  | broken cause station silent strict =>
      cases silent.symm.trans ((doomed (by simp only [Serving, station])).2 station)
  | woken station rung =>
      simp only [left, station]
      omega
  | silenced station =>
      simp only [left, station]
      omega
  | rested station nothing =>
      obtain ⟨⟨i, member, -⟩, -⟩ := doomed (by simp only [Serving, station])
      exact absurd nothing (next_of_queued w tidy i member)
  | served ticket request rest after station taken serves =>
      exact left_served host w v ticket request rest station taken serves
  | refused outcome ticket request rest station taken =>
      simp only [left, station, refuse_eq]
      exact Nat.add_lt_add_right (shorter_of_next w.mailbox rest ticket request _ taken) 2
  | emptied outcome station nothing =>
      simp only [left, station]
      omega
  | closed outcome station =>
      simp only [left, station]
      omega
  | gone outcome station => simp only [outcome?, station, reduceCtorEq] at running

theorem run_ends (host : Host) (steps : Nat) (w : Worker) (tidy : w.Tidy) (doomed : w.Doomed) (enough : w.left ≤ steps) :
    ∃ own, (run host steps w).outcome? = some own := by
  induction steps generalizing w with
  | zero =>
      cases ended : w.outcome? with
      | some own => exact ⟨own, ended⟩
      | none =>
          have further := left_advance host w tidy doomed ended
          omega
  | succ steps ih =>
      have follows := follows_advance host w
      cases ended : w.outcome? with
      | some own => exact ⟨own, (follows_run host (steps + 1) w).outcome own ended⟩
      | none =>
          have further := left_advance host w tidy doomed ended
          exact ih _ (follows.tidy tidy) (follows.doomed tidy doomed) (by omega)

theorem settle_ends (host : Host) (w : Worker) (tidy : w.Tidy) (doomed : w.Doomed) :
    ∃ own, (w.settle host).outcome? = some own := by
  apply run_ends host _ w tidy doomed
  rw [left]
  split <;> omega

end DemandPaging.Worker
