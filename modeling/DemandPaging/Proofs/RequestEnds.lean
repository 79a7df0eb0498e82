import DemandPaging.Proofs.WorkerSteps
import DemandPaging.Service

set_option autoImplicit false

namespace DemandPaging

variable [Platform]

inductive End where
  | served (host : Host) (pager : Pager) (reply : Reply)
  -- It was the shutdown that ended the worker.
  | last
  -- The pager broke off in it because of a defect.
  | crashed
  | refused
  -- It was still queued when the mailbox was closed.
  | dropped
  -- The mailbox was closed before, so that it could not be sent.
  | unsent

-- What the caller of a request that was not served makes of the reply.
def Request.Unserved : Request → Reply → Prop
  | .allocate _ _, reply => reply.forCreate = .error .shuttingDown
  | .reset _, reply => reply.forReset = .error .shuttingDown
  | .free _, reply => reply.forDestroy = .ok ()
  | .shutdown, _ => True

namespace End

def rank : End → Nat
  | .served _ _ _ => 0
  | .last | .crashed => 1
  | .refused => 2
  | .dropped => 3
  | .unsent => 4

def stops : End → Bool
  | .served _ _ reply => reply.ends
  | .last | .crashed => true
  | _ => false

def Late (e : End) : Prop := e = .refused ∨ e = .dropped ∨ e = .unsent

def Before (a b : End) : Prop := a.rank ≤ b.rank ∧ (a.stops = true → b.Late)

def Settles : End → Mailbox.Ticket → Prop
  | .served host pager reply, t => pager.ownReply? host t.request = some reply ∧ t.progress = .answered reply
  | .last, t => t.request = .shutdown ∧ t.progress = .dropped
  | .crashed, t => t.request ≠ .shutdown ∧ t.progress = .dropped
  | .refused, t => t.progress = .ofRefusal t.request
  | .dropped, t => t.progress = .dropped
  | .unsent, t => t.progress = .dropped

def Pays : End → Request → Reply → Prop
  | .served _ _ own, _, reply => reply = own
  | _, request, reply => request.Unserved reply

def ofService (host : Host) (p : Pager) (request : Request) : End :=
  match p.ownReply? host request, request with
  | some reply, _ => .served host p reply
  | none, .shutdown => .last
  | none, _ => .crashed

theorem rank_le (e : End) : e.rank ≤ End.unsent.rank := by
  cases e <;> simp only [rank, Nat.reduceLeDiff]

theorem before_of_late (a b : End) (late : b.Late) (ranked : a.rank ≤ b.rank) : a.Before b := ⟨ranked, fun _ => late⟩

theorem before_of_going_on (a b : End) (first : a.rank = 0) (goesOn : a.stops = false) : a.Before b := by
  refine ⟨first ▸ Nat.zero_le _, fun stops => ?_⟩
  rw [goesOn] at stops
  cases stops

theorem unserved_of_fallback (request : Request) : request.Unserved request.fallback := by
  cases request with
  | shutdown => trivial
  | _ => rfl

theorem unserved_of_failed_send (request : Request) : request.Unserved (.failed .shuttingDown) := by
  cases request with
  | shutdown => trivial
  | _ => rfl

theorem unserved_of_refusal (request : Request) (reply : Reply) (refused : request.refusal? = some reply) :
    request.Unserved reply := by
  cases request with
  | shutdown => trivial
  | _ =>
      cases refused
      rfl

theorem received_of_settled (m : Mailbox) (i : Nat) (t : Mailbox.Ticket) (e : End) (there : m.tickets[i]? = some t)
    (settles : e.Settles t) :
    ∃ reply, m.received? i = some reply ∧ (t.request ≠ .shutdown → e.Pays t.request reply) := by
  obtain ⟨request, progress⟩ := t
  have dropped : progress = .dropped → m.received? i = some request.fallback := by
    intro dropped
    subst dropped
    rw [Mailbox.received?, there]
  cases e with
  | served host p reply =>
      obtain ⟨-, answered⟩ := settles
      refine ⟨reply, ?_, fun _ => rfl⟩
      simp only at answered
      rw [Mailbox.received?, there, answered]
  | refused =>
      cases refused : request.refusal? with
      | some reply =>
          simp only [Settles, Mailbox.Progress.ofRefusal, refused] at settles
          refine ⟨reply, ?_, fun _ => unserved_of_refusal request reply refused⟩
          rw [Mailbox.received?, there, settles]
      | none =>
          simp only [Settles, Mailbox.Progress.ofRefusal, refused] at settles
          exact ⟨_, dropped settles, fun _ => unserved_of_fallback request⟩
  | last => exact ⟨_, dropped settles.2, fun _ => unserved_of_fallback request⟩
  | crashed => exact ⟨_, dropped settles.2, fun _ => unserved_of_fallback request⟩
  | dropped => exact ⟨_, dropped settles, fun _ => unserved_of_fallback request⟩
  | unsent => exact ⟨_, dropped settles, fun _ => unserved_of_fallback request⟩

end End

namespace Mailbox

-- The tickets that have been settled, with how they ended: a first part of all of them. Once the mailbox is closed, it is all.
structure Accounts (m : Mailbox) (ends : List (Nat × End)) : Prop where
  numbers : ends.map Prod.fst = List.range ends.length
  order : ends.Pairwise fun a b => a.2.Before b.2
  settled : ∀ i e, (i, e) ∈ ends → ∃ t, m.tickets[i]? = some t ∧ e.Settles t
  early : m.isOpen = true → ∀ a ∈ ends, a.2.rank ≤ End.refused.rank
  line : m.isOpen = true → m.Line ends.length
  gone : m.isOpen = false → m.queue = [] ∧ ends.length = m.tickets.size

theorem accounts_empty : empty.Accounts [] := by
  have line : empty.Line 0 := ⟨rfl, Nat.le_refl 0, rfl, fun i t _ there => by cases there⟩
  have nothing : ∀ {α : Type} (a : α), ¬ a ∈ ([] : List α) := fun _ => List.not_mem_nil
  exact ⟨rfl, .nil, fun i e member => absurd member (nothing _), fun _ a member => absurd member (nothing _),
    fun _ => line, fun _ => ⟨rfl, rfl⟩⟩

section

variable (m next : Mailbox) (ends : List (Nat × End)) (accounts : m.Accounts ends)

include accounts

theorem ticket_lt (i : Nat) (e : End) (member : (i, e) ∈ ends) : i < ends.length := by
  have listed := List.mem_map_of_mem member (f := Prod.fst)
  rw [accounts.numbers] at listed
  exact List.mem_range.mp listed

theorem end_of_lt (i : Nat) (inside : i < ends.length) : ∃ e, (i, e) ∈ ends := by
  have listed : i ∈ ends.map Prod.fst := accounts.numbers ▸ List.mem_range.mpr inside
  obtain ⟨⟨j, e⟩, member, same⟩ := List.mem_map.mp listed
  exact ⟨e, same ▸ member⟩

theorem end_of_settled (i : Nat) (t : Ticket) (there : m.tickets[i]? = some t) (settled : t.progress ≠ .queued) :
    ∃ e, (i, e) ∈ ends ∧ e.Settles t := by
  have inside := (Array.getElem?_eq_some_iff.mp there).1
  have ended : i < ends.length := by
    by_contra later
    by_cases isOpen : m.isOpen = true
    · exact settled ((accounts.line isOpen).waiting i t (Nat.le_of_not_lt later) there)
    · obtain ⟨-, whole⟩ := accounts.gone (Bool.eq_false_iff.mpr isOpen)
      omega
  obtain ⟨e, member⟩ := end_of_lt m ends accounts i ended
  obtain ⟨u, uThere, settles⟩ := accounts.settled i e member
  cases there.symm.trans uThere
  exact ⟨e, member, settles⟩

theorem pays_of_received (i : Nat) (request : Request) (reply : Reply) (asked : m.asked i = some request)
    (told : m.received? i = some reply) (other : request ≠ .shutdown) : ∃ e, (i, e) ∈ ends ∧ e.Pays request reply := by
  obtain ⟨t, there, rfl⟩ := Option.map_eq_some_iff.mp asked
  have settled : t.progress ≠ .queued := by
    intro queued
    obtain ⟨request, progress⟩ := t
    cases queued
    rw [received?, there] at told
    cases told
  obtain ⟨e, member, settles⟩ := end_of_settled m ends accounts i t there settled
  obtain ⟨own, ownTold, pays⟩ := End.received_of_settled m i t e there settles
  cases told.symm.trans ownTold
  exact ⟨e, member, pays other⟩

theorem accounts_belled (bell : Bell) : Accounts { m with bell } ends := by
  refine ⟨accounts.numbers, accounts.order, accounts.settled, accounts.early, fun isOpen => ?_, accounts.gone⟩
  have line := accounts.line isOpen
  exact ⟨line.isOpen, line.inside, line.queue, line.waiting⟩

theorem accounts_settled (e : End) (t : Ticket) (progress : Progress) (isOpen : m.isOpen = true)
    (there : m.tickets[ends.length]? = some t) (settled : m.Settled ends.length progress next)
    (settles : e.Settles { t with progress }) (order : ∀ a ∈ ends, a.2.Before e)
    (early : e.rank ≤ End.refused.rank) : next.Accounts (ends ++ [(ends.length, e)]) := by
  have inside := (Array.getElem?_eq_some_iff.mp there).1
  have line := line_settled m next ends.length progress (accounts.line isOpen) settled inside
  have length : (ends ++ [(ends.length, e)]).length = ends.length + 1 := List.length_append
  refine ⟨?_, ?_, fun i f member => ?_, fun _ a member => ?_, fun _ => length ▸ line, fun closed => ?_⟩
  · rw [List.map_append, accounts.numbers, length, List.range_succ, List.map_singleton]
  · refine List.pairwise_append.mpr ⟨accounts.order, List.pairwise_singleton _ _, fun a member b last => ?_⟩
    rw [List.mem_singleton.mp last]
    exact order a member
  · rcases List.mem_append.mp member with old | new
    · obtain ⟨u, uThere, uSettles⟩ := accounts.settled i f old
      have other : i ≠ ends.length := Nat.ne_of_lt (ticket_lt m ends accounts i f old)
      exact ⟨u, by rw [settled.tickets, uThere, Option.map_some, if_neg other], uSettles⟩
    · cases List.mem_singleton.mp new
      exact ⟨_, by rw [settled.tickets, there, Option.map_some, if_pos rfl], settles⟩
  · rcases List.mem_append.mp member with old | new
    · exact accounts.early isOpen a old
    · rw [List.mem_singleton.mp new]
      exact early
  · rw [settled.isOpen, isOpen] at closed
    cases closed

theorem accounts_closed (isOpen : m.isOpen = true) : m.close.Accounts (ends ++ m.queue.map fun i => (i, .dropped)) := by
  have line := accounts.line isOpen
  have inside := line.inside
  have queued : ∀ i, i ∈ m.queue ↔ ends.length ≤ i ∧ i < m.tickets.size := by
    intro i
    rw [line.queue, List.mem_range'_1]
    omega
  have length : (ends ++ m.queue.map fun i => (i, End.dropped)).length = m.tickets.size := by
    rw [List.length_append, List.length_map, line.queue, List.length_range']
    omega
  refine ⟨?_, ?_, fun i f member => ?_, fun again => ?_, fun again => ?_, fun _ => ⟨rfl, ?_⟩⟩
  · have names : (Prod.fst ∘ fun i : Nat => (i, End.dropped)) = id := rfl
    have both := List.range'_append_1 (s := 0) (m := ends.length) (n := m.tickets.size - ends.length)
    rw [List.map_append, accounts.numbers, List.map_map, names, List.map_id, length, line.queue, List.range_eq_range',
      List.range_eq_range']
    simpa [Nat.add_sub_cancel' inside] using both
  · refine List.pairwise_append.mpr ⟨accounts.order, ?_, fun a member b last => ?_⟩
    · refine List.pairwise_map.mpr (List.pairwise_of_forall_sublist fun _ => ?_)
      exact End.before_of_late _ _ (Or.inr (Or.inl rfl)) (Nat.le_refl _)
    · obtain ⟨i, -, rfl⟩ := List.mem_map.mp last
      exact End.before_of_late _ _ (Or.inr (Or.inl rfl)) (Nat.le_succ_of_le (accounts.early isOpen a member))
  · rcases List.mem_append.mp member with old | new
    · obtain ⟨u, uThere, uSettles⟩ := accounts.settled i f old
      have other : ¬ i ∈ m.queue := by
        have := ticket_lt m ends accounts i f old
        rw [queued]
        omega
      exact ⟨u, by rw [tickets_close, uThere, Option.map_some, if_neg other], uSettles⟩
    · obtain ⟨j, waits, same⟩ := List.mem_map.mp new
      cases same
      have there := Array.getElem?_eq_getElem ((queued i).mp waits).2
      refine ⟨_, by rw [tickets_close, there, Option.map_some, if_pos waits], ?_⟩
      exact rfl
  · cases again
  · cases again
  · rw [length, size_of_asked m m.close (asked_close m)]

theorem accounts_enqueued (request : Request) (isOpen : m.isOpen = true) : (m.enqueue request).Accounts ends := by
  have line := line_enqueued m request ends.length (accounts.line isOpen)
  refine ⟨accounts.numbers, accounts.order, fun i f member => ?_, fun _ => accounts.early isOpen, fun _ => line,
    fun closed => ?_⟩
  · obtain ⟨u, there, settles⟩ := accounts.settled i f member
    have old := (Array.getElem?_eq_some_iff.mp there).1
    refine ⟨u, ?_, settles⟩
    simp only [enqueue, isOpen, if_true, Array.getElem?_push, if_neg (Nat.ne_of_lt old), there]
  · rw [line.isOpen] at closed
    cases closed

theorem accounts_unsent (request : Request) (closed : m.isOpen = false) :
    (m.enqueue request).Accounts (ends ++ [(m.tickets.size, .unsent)]) := by
  obtain ⟨queue, whole⟩ := accounts.gone closed
  have enqueued : m.enqueue request = { m with tickets := m.tickets.push ⟨request, .dropped⟩ } := by
    rw [enqueue, closed, if_neg Bool.false_ne_true]
  have length : (ends ++ [(m.tickets.size, End.unsent)]).length = ends.length + 1 := List.length_append
  rw [enqueued]
  refine ⟨?_, ?_, fun i f member => ?_, fun isOpen => ?_, fun isOpen => ?_, fun _ => ⟨queue, ?_⟩⟩
  · rw [List.map_append, accounts.numbers, length, List.range_succ, List.map_singleton, whole]
  · refine List.pairwise_append.mpr ⟨accounts.order, List.pairwise_singleton _ _, fun a member b last => ?_⟩
    rw [List.mem_singleton.mp last]
    exact End.before_of_late _ _ (Or.inr (Or.inr rfl)) a.2.rank_le
  · rcases List.mem_append.mp member with old | new
    · obtain ⟨u, there, settles⟩ := accounts.settled i f old
      have old := (Array.getElem?_eq_some_iff.mp there).1
      exact ⟨u, by rw [Array.getElem?_push, if_neg (Nat.ne_of_lt old), there], settles⟩
    · cases List.mem_singleton.mp new
      exact ⟨_, Array.getElem?_push_size, rfl⟩
  · rw [closed] at isOpen
    cases isOpen
  · rw [closed] at isOpen
    cases isOpen
  · rw [length, whole, Array.size_push]

end

end Mailbox

end DemandPaging
