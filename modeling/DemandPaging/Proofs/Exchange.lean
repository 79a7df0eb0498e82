import DemandPaging.Proofs.RequestEnds
import Mathlib.Logic.Relation

set_option autoImplicit false

namespace DemandPaging

variable [Platform]

inductive Stage where
  -- The request is in the queue, and the bell has not been rung for it yet.
  | ringing
  | waiting
  | returned (reply : Reply)

-- A worker and its clients, one for each ticket, and how requests ended so far, oldest first.
structure Exchange where
  worker : Worker
  clients : Array Stage
  ends : List (Nat × End)

namespace Worker

def Gone (w : Worker) : Prop :=
  match w.station with
  | .closed _ => True
  | _ => False

theorem not_gone_of_serving (w : Worker) (serving : w.Serving) : ¬ w.Gone := by
  intro gone
  rw [Gone] at gone
  rw [Serving] at serving
  split at gone
  · rename_i station
    simp only [station] at serving
  · exact gone

def taken (host : Host) (w : Worker) : List (Nat × End) :=
  match w.station, w.mailbox.next with
  | .serving, some (ticket, request, _) => [(ticket, .ofService host w.pager request)]
  | .refusing _, some (ticket, _, _) => [(ticket, .refused)]
  | _, _ => []

end Worker

namespace Exchange

def started (w : Worker) : Exchange where
  worker := w
  clients := #[]
  ends := []

def sent (x : Exchange) (request : Request) : Exchange :=
  let worker := { x.worker with mailbox := x.worker.mailbox.enqueue request }
  if x.worker.mailbox.isOpen then
    { x with worker, clients := x.clients.push .ringing }
  else
    { worker, clients := x.clients.push (.returned (.failed .shuttingDown))
      ends := x.ends ++ [(x.worker.mailbox.tickets.size, .unsent)] }

-- The client rings the bell for its request, and waits for the reply. Who asked for a shutdown does not wait.
def rang (x : Exchange) (ticket : Nat) : Exchange :=
  { x with
    worker := { x.worker with mailbox := x.worker.mailbox.ring }
    clients := x.clients.setIfInBounds ticket (match x.worker.mailbox.asked ticket with
      | some .shutdown => .returned .done
      | _ => .waiting) }

def received (x : Exchange) (ticket : Nat) (reply : Reply) : Exchange :=
  { x with clients := x.clients.setIfInBounds ticket (.returned reply) }

-- The worker goes on to `w`, with these requests taken out of the queue. What a closed mailbox still held is dropped.
def moved (x : Exchange) (taken : List (Nat × End)) (w : Worker) : Exchange :=
  { x with
    worker := w
    ends := x.ends ++ taken ++
      if w.mailbox.isOpen then [] else (x.worker.mailbox.queue.drop taken.length).map fun i => (i, .dropped) }

-- One step of a client or of the worker. Apart from its loop, a worker that serves may answer a fault, and may end because
-- of a failure of the system; and clients may change memory.
inductive Step : Exchange → Exchange → Prop where
  | sent (x : Exchange) (request : Request) : Step x (x.sent request)
  | rang (x : Exchange) (ticket : Nat) (stage : x.clients[ticket]? = some .ringing) : Step x (x.rang ticket)
  | received (x : Exchange) (ticket : Nat) (reply : Reply) (stage : x.clients[ticket]? = some .waiting)
      (told : x.worker.mailbox.received? ticket = some reply) : Step x (x.received ticket reply)
  | advanced (x : Exchange) (host : Host) : Step x (x.moved (x.worker.taken host) (x.worker.advance host))
  | faulted (x : Exchange) (host : Host) (address : Nat) (serving : x.worker.Serving) :
      Step x (x.moved [] (x.worker.fault host address))
  | failed (x : Exchange) (failure : Failure) (serving : x.worker.Serving) :
      Step x (x.moved [] (x.worker.finish (.error failure)))
  | altered (x : Exchange) (address : Nat) (f : Mapping → Mapping) :
      Step x (x.moved [] (x.worker.modifyMapping address f))

inductive Reached (settings : Settings) : Exchange → Prop where
  | started (w : Worker) (start : Worker.start settings = .ok w) : Reached settings (started w)
  | stepped (x y : Exchange) (before : Reached settings x) (step : Step x y) : Reached settings y

def run (host : Host) : Nat → Exchange → Exchange
  | 0, x => x
  | steps + 1, x => run host steps (x.moved (x.worker.taken host) (x.worker.advance host))

theorem run_leads (host : Host) (steps : Nat) (x : Exchange) : Relation.ReflTransGen Step x (x.run host steps) := by
  induction steps generalizing x with
  | zero => exact .refl
  | succ steps ih => exact .head (.advanced x host) (ih _)

theorem run_worker (host : Host) (steps : Nat) (x : Exchange) :
    (x.run host steps).worker = x.worker.run host steps ∧ (x.run host steps).clients = x.clients := by
  induction steps generalizing x with
  | zero => exact ⟨rfl, rfl⟩
  | succ steps ih => exact ih _

structure Sound (x : Exchange) : Prop where
  accounts : x.worker.mailbox.Accounts x.ends
  gone : x.worker.mailbox.isOpen = false ↔ x.worker.Gone
  -- While the worker serves, all that has ended was served, and did not end the worker.
  serving : x.worker.Serving → ∀ a ∈ x.ends, a.2.rank = 0 ∧ a.2.stops = false
  clients : x.clients.size = x.worker.mailbox.tickets.size
  returned : ∀ (i : Nat) (reply : Reply) (request : Request), x.clients[i]? = some (.returned reply) →
    x.worker.mailbox.asked i = some request → request ≠ .shutdown → ∃ e, (i, e) ∈ x.ends ∧ e.Pays request reply

open Worker Mailbox

theorem open_of_not_gone (x : Exchange) (sound : x.Sound) (here : ¬ x.worker.Gone) : x.worker.mailbox.isOpen = true := by
  by_contra closed
  exact here (sound.gone.mp (Bool.eq_false_iff.mpr closed))

theorem open_of_serving (x : Exchange) (sound : x.Sound) (serving : x.worker.Serving) : x.worker.mailbox.isOpen = true :=
  open_of_not_gone x sound (x.worker.not_gone_of_serving serving)

theorem before_of_serving (x : Exchange) (sound : x.Sound) (serving : x.worker.Serving) (e : End) :
    ∀ a ∈ x.ends, a.2.Before e := by
  intro a member
  obtain ⟨first, goesOn⟩ := sound.serving serving a member
  exact End.before_of_going_on a.2 e first goesOn

section

variable (x : Exchange) (sound : x.Sound)

include sound

theorem sound_moved (taken : List (Nat × End)) (w : Worker) (asked : ∀ i, w.mailbox.asked i = x.worker.mailbox.asked i)
    (accounts : w.mailbox.Accounts (x.moved taken w).ends) (gone : w.mailbox.isOpen = false ↔ w.Gone)
    (serving : w.Serving → ∀ a ∈ (x.moved taken w).ends, a.2.rank = 0 ∧ a.2.stops = false) : (x.moved taken w).Sound := by
  refine ⟨accounts, gone, serving, ?_, fun i reply request told was other => ?_⟩
  · exact sound.clients.trans (size_of_asked x.worker.mailbox w.mailbox asked).symm
  · obtain ⟨e, member, pays⟩ := sound.returned i reply request told ((asked i).symm.trans was) other
    exact ⟨e, List.mem_append_left _ (List.mem_append_left _ member), pays⟩

theorem sound_stays (w : Worker) (bell : Bell) (same : w.mailbox = { x.worker.mailbox with bell })
    (gone : w.Gone ↔ x.worker.Gone) (serving : w.Serving → x.worker.Serving) : (x.moved [] w).Sound := by
  have isOpen : w.mailbox.isOpen = x.worker.mailbox.isOpen := by rw [same]
  have ends : (x.moved [] w).ends = x.ends := by
    simp only [moved, List.append_nil, List.length_nil, List.drop_zero]
    by_cases closed : x.worker.mailbox.isOpen = false
    · rw [(sound.accounts.gone closed).1, List.map_nil, ite_self, List.append_nil]
    · rw [if_pos (isOpen.trans (Bool.not_eq_false _ ▸ closed)), List.append_nil]
  refine sound_moved x sound [] w (fun i => by rw [same]; rfl) ?_ ?_ ?_
  · rw [ends, same]
    exact accounts_belled x.worker.mailbox x.ends sound.accounts bell
  · rw [isOpen, gone]
    exact sound.gone
  · rw [ends]
    exact fun again => sound.serving (serving again)

theorem sound_settled (w : Worker) (e : End) (t : Ticket) (progress : Progress) (isOpen : x.worker.mailbox.isOpen = true)
    (there : x.worker.mailbox.tickets[x.ends.length]? = some t)
    (settled : x.worker.mailbox.Settled x.ends.length progress w.mailbox) (settles : e.Settles { t with progress })
    (order : ∀ a ∈ x.ends, a.2.Before e) (early : e.rank ≤ End.refused.rank) (here : ¬ w.Gone)
    (serving : w.Serving → x.worker.Serving ∧ e.rank = 0 ∧ e.stops = false) :
    (x.moved [(x.ends.length, e)] w).Sound := by
  have stays : w.mailbox.isOpen = true := settled.isOpen.trans isOpen
  have ends : (x.moved [(x.ends.length, e)] w).ends = x.ends ++ [(x.ends.length, e)] := by
    simp only [moved, if_pos stays, List.append_nil]
  refine sound_moved x sound _ w (asked_settled _ _ _ progress settled) ?_ ?_ ?_
  · rw [ends]
    exact accounts_settled _ _ x.ends sound.accounts e t progress isOpen there settled settles order early
  · exact ⟨fun closed => absurd (stays.symm.trans closed) Bool.true_eq_false.mp, fun gone => absurd gone here⟩
  · rw [ends]
    intro again a member
    obtain ⟨before, first, goesOn⟩ := serving again
    rcases List.mem_append.mp member with old | new
    · exact sound.serving before a old
    · rw [List.mem_singleton.mp new]
      exact ⟨first, goesOn⟩

theorem queue_of_nothing (here : ¬ x.worker.Gone) (nothing : x.worker.mailbox.next = none) : x.worker.mailbox.queue = [] := by
  have line := sound.accounts.line (open_of_not_gone x sound here)
  rcases next_line _ _ line with ⟨-, all⟩ | ⟨t, -, -, front⟩
  · have left : x.worker.mailbox.tickets.size - x.ends.length = 0 := by omega
    rw [line.queue, left, List.range'_zero]
  · cases nothing.symm.trans front

theorem front_of_next (isOpen : x.worker.mailbox.isOpen = true) (ticket : Nat) (request : Request) (rest : Mailbox)
    (taken : x.worker.mailbox.next = some (ticket, request, rest)) :
    ticket = x.ends.length ∧ (∃ t, x.worker.mailbox.tickets[x.ends.length]? = some t ∧ t.request = request) ∧
      ∀ progress, x.worker.mailbox.Settled x.ends.length progress (rest.setProgress x.ends.length progress) := by
  rcases next_line x.worker.mailbox x.ends.length (sound.accounts.line isOpen) with ⟨nothing, -⟩ | ⟨t, there, -, front⟩
  · rw [nothing] at taken
    cases taken
  · cases front.symm.trans taken
    exact ⟨rfl, ⟨t, there, rfl⟩, fun progress => settled_set_progress _ _ progress _ .held rfl⟩

theorem sound_served (host : Host) (ticket : Nat) (request : Request) (rest : Mailbox) (after : Worker)
    (station : x.worker.station = .serving) (taken : x.worker.mailbox.next = some (ticket, request, rest))
    (serves : Serves host { x.worker with mailbox := rest } ticket request after) :
    (x.moved [(ticket, .ofService host x.worker.pager request)] after).Sound := by
  have serving : x.worker.Serving := by simp only [Serving, station]
  have isOpen := open_of_serving x sound serving
  obtain ⟨rfl, ⟨t, there, rfl⟩, settled⟩ := front_of_next x sound isOpen ticket request rest taken
  have order := before_of_serving x sound serving
  cases serves with
  | answered reply q own lasts same =>
      have how : End.ofService host x.worker.pager t.request = .served host x.worker.pager reply := by
        simp only [End.ofService, own]
      rw [how]
      refine sound_settled x sound _ _ t (.answered reply) isOpen there (settled _) ⟨own, rfl⟩ (order _) (Nat.zero_le _)
        ?_ fun _ => ⟨serving, rfl, lasts⟩
      exact x.worker.not_gone_of_serving serving
  | ended failure q own ends same =>
      have how : End.ofService host x.worker.pager t.request = .served host x.worker.pager (.failed failure) := by
        simp only [End.ofService, own]
      rw [how]
      refine sound_settled x sound _ _ t (.answered (.failed failure)) isOpen there (settled _) ⟨own, rfl⟩ (order _)
        (Nat.zero_le _) id fun again => again.elim
  | stopped asked =>
      have how : End.ofService host x.worker.pager t.request = .last := by
        rw [asked]
        rfl
      rw [how]
      refine sound_settled x sound _ _ t .dropped isOpen there (settled _) ⟨asked, rfl⟩ (order _) (Nat.le_succ 1) id
        fun again => again.elim
  | crashed q other none same =>
      have how : End.ofService host x.worker.pager t.request = .crashed := by
        simp only [End.ofService, none]
      have accounts := accounts_settled _ _ x.ends sound.accounts .crashed t .dropped isOpen there (settled _) ⟨other, rfl⟩
        (order _) (Nat.le_succ 1)
      rw [how]
      refine sound_moved x sound _ _ (fun i => ?_) ?_ ⟨fun _ => trivial, fun _ => rfl⟩ fun again => again.elim
      · exact (asked_close _ i).trans (asked_settled _ _ _ .dropped (settled _) i)
      · have closed := accounts_closed _ _ accounts ((settled .dropped).isOpen.trans isOpen)
        rw [(settled .dropped).queue] at closed
        simpa [moved, crash, close, drop] using closed

theorem sound_refused (outcome : Outcome) (ticket : Nat) (request : Request) (rest : Mailbox)
    (station : x.worker.station = .refusing outcome) (taken : x.worker.mailbox.next = some (ticket, request, rest)) :
    (x.moved [(ticket, .refused)] { x.worker with mailbox := rest.refuse ticket request }).Sound := by
  have here : ¬ x.worker.Gone := by simp only [Gone, station, not_false_eq_true]
  have isOpen := open_of_not_gone x sound here
  obtain ⟨rfl, ⟨t, there, rfl⟩, settled⟩ := front_of_next x sound isOpen ticket request rest taken
  have order : ∀ a ∈ x.ends, a.2.Before .refused := fun a member =>
    End.before_of_late a.2 _ (Or.inl rfl) (sound.accounts.early isOpen a member)
  rw [refuse_eq]
  refine sound_settled x sound _ _ t _ isOpen there (settled _) rfl order (Nat.le_refl _) here fun again => ?_
  simp only [Serving, station] at again

theorem sound_closed (outcome : Outcome) (isOpen : x.worker.mailbox.isOpen = true) (q : Pager) (interrupts : Nat) :
    (x.moved [] { pager := q, mailbox := x.worker.mailbox.close, station := .closed outcome, interrupts }).Sound := by
  refine sound_moved x sound _ _ (asked_close x.worker.mailbox) ?_ ⟨fun _ => trivial, fun _ => rfl⟩
    fun again => again.elim
  have closed := accounts_closed _ _ sound.accounts isOpen
  simpa [moved, close] using closed

theorem sound_advanced (host : Host) : (x.moved (x.worker.taken host) (x.worker.advance host)).Sound := by
  have stepped := advance_cases host x.worker
  generalize x.worker.advance host = w at stepped
  cases stepped with
  | idle interrupts station silent =>
      simp only [Worker.taken, station]
      refine sound_stays x sound _ _ rfl ?_ ?_
      · simp only [Gone, station]
      · simp only [Serving, station, imp_self]
  | broken cause station silent strict =>
      have here : ¬ x.worker.Gone := by simp only [Gone, station, not_false_eq_true]
      simp only [Worker.taken, station]
      exact sound_stays x sound _ _ rfl ⟨False.elim, here⟩ False.elim
  | woken station rung =>
      simp only [Worker.taken, station]
      refine sound_stays x sound _ _ rfl ?_ ?_
      · simp only [Gone, station]
      · simp only [Serving, station, imp_self]
  | silenced station =>
      simp only [Worker.taken, station]
      refine sound_stays x sound _ _ rfl ?_ ?_
      · simp only [Gone, station]
      · simp only [Serving, station, imp_self]
  | rested station nothing =>
      simp only [Worker.taken, station, nothing]
      refine sound_stays x sound _ _ rfl ?_ ?_
      · simp only [Gone, station]
      · simp only [Serving, station, imp_self]
  | served ticket request rest after station taken serves =>
      simp only [Worker.taken, station, taken]
      exact sound_served x sound host ticket request rest w station taken serves
  | refused outcome ticket request rest station taken =>
      simp only [Worker.taken, station, taken]
      exact station ▸ sound_refused x sound outcome ticket request rest station taken
  | emptied outcome station nothing =>
      simp only [Worker.taken, station, nothing]
      refine sound_stays x sound _ _ rfl ?_ ?_
      · simp only [Gone, station]
      · simp only [Serving, false_implies]
  | closed outcome station =>
      simp only [Worker.taken, station]
      exact sound_closed x sound outcome (open_of_not_gone x sound (by simp only [Gone, station, not_false_eq_true])) _ _
  | gone outcome station =>
      simp only [Worker.taken, station]
      exact sound_stays x sound _ _ rfl Iff.rfl id

theorem sound_faulted (host : Host) (address : Nat) (serving : x.worker.Serving) :
    (x.moved [] (x.worker.fault host address)).Sound := by
  have here := x.worker.not_gone_of_serving serving
  have faulted := fault_cases host x.worker address
  generalize x.worker.fault host address = w at faulted
  cases faulted with
  | answered q same => exact sound_stays x sound _ _ rfl Iff.rfl id
  | ended failure q same => exact sound_stays x sound _ _ rfl ⟨False.elim, here⟩ False.elim
  | crashed q same => exact sound_closed x sound _ (open_of_serving x sound serving) _ _

theorem returned_sent (request : Request) (ends : List (Nat × End)) (old : ∀ a ∈ x.ends, a ∈ ends) (i : Nat) (reply : Reply)
    (was : Request) (told : x.clients[i]? = some (.returned reply))
    (asked : (x.worker.mailbox.enqueue request).asked i = some was) (other : was ≠ .shutdown) :
    ∃ e, (i, e) ∈ ends ∧ e.Pays was reply := by
  have inside : i < x.worker.mailbox.tickets.size := sound.clients ▸ (Array.getElem?_eq_some_iff.mp told).1
  rw [asked_enqueue, if_neg (Nat.ne_of_lt inside)] at asked
  obtain ⟨e, member, pays⟩ := sound.returned i reply was told asked other
  exact ⟨e, old _ member, pays⟩

theorem sound_sent (request : Request) : (x.sent request).Sound := by
  rw [sent]
  by_cases isOpen : x.worker.mailbox.isOpen = true
  · rw [if_pos isOpen]
    refine ⟨accounts_enqueued _ _ sound.accounts request isOpen, ?_, sound.serving, ?_, fun i reply was told asked other => ?_⟩
    · rw [open_enqueue]
      exact sound.gone
    · rw [Array.size_push, size_enqueue, sound.clients]
    · rw [Array.getElem?_push] at told
      split at told
      · cases told
      · exact returned_sent x sound request x.ends (fun _ member => member) i reply was told asked other
  · have closed := Bool.eq_false_iff.mpr isOpen
    have gone := sound.gone.mp closed
    rw [if_neg isOpen]
    refine ⟨accounts_unsent _ _ sound.accounts request closed, ?_, fun serving => ?_, ?_,
      fun i reply was told asked other => ?_⟩
    · rw [open_enqueue]
      exact sound.gone
    · exact absurd gone (x.worker.not_gone_of_serving serving)
    · rw [Array.size_push, size_enqueue, sound.clients]
    · rw [Array.getElem?_push] at told
      split at told
      · rename_i new
        cases told
        rw [new, sound.clients, asked_enqueue, if_pos rfl] at asked
        cases asked
        rw [new, sound.clients]
        exact ⟨.unsent, List.mem_append_right _ List.mem_cons_self, End.unserved_of_failed_send request⟩
      · exact returned_sent x sound request _ (fun _ member => List.mem_append_left _ member) i reply was told asked other

theorem sound_rang (ticket : Nat) : (x.rang ticket).Sound := by
  refine ⟨accounts_belled _ _ sound.accounts _, sound.gone, sound.serving, ?_, fun i reply was told asked other => ?_⟩
  · rw [rang, Array.size_setIfInBounds]
    exact sound.clients
  · have asked : x.worker.mailbox.asked i = some was := asked
    rw [rang, Array.getElem?_setIfInBounds] at told
    by_cases own : ticket = i
    · subst own
      rw [if_pos rfl, asked] at told
      split at told
      · cases was with
        | shutdown => exact absurd rfl other
        | _ => cases told
      · cases told
    · rw [if_neg own] at told
      exact sound.returned i reply was told asked other

theorem sound_received (ticket : Nat) (reply : Reply) (told : x.worker.mailbox.received? ticket = some reply) :
    (x.received ticket reply).Sound := by
  refine ⟨sound.accounts, sound.gone, sound.serving, ?_, fun i again was toldAgain asked other => ?_⟩
  · rw [received, Array.size_setIfInBounds]
    exact sound.clients
  · rw [received, Array.getElem?_setIfInBounds] at toldAgain
    by_cases own : ticket = i
    · subst own
      rw [if_pos rfl] at toldAgain
      split at toldAgain
      · cases toldAgain
        exact pays_of_received _ _ sound.accounts ticket was reply asked told other
      · cases toldAgain
    · rw [if_neg own] at toldAgain
      exact sound.returned i again was toldAgain asked other

theorem sound_stepped (y : Exchange) (step : Step x y) : y.Sound := by
  cases step with
  | sent request => exact sound_sent x sound request
  | rang ticket stage => exact sound_rang x sound ticket
  | received ticket reply stage told => exact sound_received x sound ticket reply told
  | advanced host => exact sound_advanced x sound host
  | faulted host address serving => exact sound_faulted x sound host address serving
  | failed failure serving =>
      exact sound_stays x sound _ _ rfl ⟨False.elim, x.worker.not_gone_of_serving serving⟩ False.elim
  | altered address f => exact sound_stays x sound _ _ rfl Iff.rfl id

end

theorem sound_of_reached (settings : Settings) (x : Exchange) (reached : Reached settings x) : x.Sound := by
  induction reached with
  | started w start =>
      obtain ⟨p, -, rfl⟩ := start_eq settings w start
      refine ⟨accounts_empty, ⟨fun closed => (by cases closed), False.elim⟩,
        fun _ a member => ?_, rfl, fun i reply was told => ?_⟩
      · exact absurd member List.not_mem_nil
      · cases told
  | stepped x y before step ih => exact sound_stepped x ih y step

theorem sound_of_run (x y : Exchange) (sound : x.Sound) (run : Relation.ReflTransGen Step x y) : y.Sound := by
  induction run with
  | refl => exact sound
  | tail _ step ih => exact sound_stepped _ ih _ step

end Exchange

end DemandPaging
