import DemandPaging.Proofs.FixedSettings
import DemandPaging.Proofs.Tickets

set_option autoImplicit false

namespace DemandPaging

theorem Bell.rung_ring (b : Bell) : b.ring.isRung = true := by
  simp [ring, isRung, Word.limit]

theorem Failure.copy_of_fatal (failure : Failure) (ends : Worker.endsWorker failure = true) : failure.copy = failure := by
  cases failure with
  | resource operation cause => cases ends
  | io cause => cases ends
  | _ => rfl

variable [Platform]

-- The worker that gives this reply ends.
def Reply.ends : Reply → Bool
  | .failed failure => Worker.endsWorker failure
  | _ => false

namespace Pager

-- What the pager does for a request. A shutdown is none of its business.
def work? (host : Host) : Request → Option (M Reply)
  | .allocate id template => some (do pure (Reply.granted (← allocate host id template)))
  | .free id => some (do free id; pure Reply.done)
  | .reset id => some (do reset host id; pure Reply.done)
  | .shutdown => none

def replyOf? : EStateM.Result Halt Pager Reply → Option Reply
  | .ok reply _ => some reply
  | .error (.failed failure) _ => some (.failed failure)
  | .error (.arithmetic _) _ => none
  | .error (.assertion _) _ => none

-- The pager's own reply to a request: none to a shutdown, and none where the pager breaks off because of a defect.
def ownReply? (p : Pager) (host : Host) (request : Request) : Option Reply :=
  (work? host request).bind fun x => replyOf? (x.run p)

section

variable (host : Host) (request : Request) (x : M Reply) (work : work? host request = some x)

include work

theorem own_reply_of_work (p : Pager) : p.ownReply? host request = replyOf? (x.run p) := by
  rw [ownReply?, work, Option.bind_some]

theorem fixes_work (s : Settings) : Fixes s x := by
  cases request with
  | allocate id template =>
      cases work
      exact fixes_bind s _ _ (fixes_allocate s host id template) fun grant => fixes_pure s _
  | free id =>
      cases work
      exact fixes_bind s _ _ (fixes_free s id) fun _ => fixes_pure s _
  | reset id =>
      cases work
      exact fixes_bind s _ _ (fixes_reset s host id) fun _ => fixes_pure s _
  | shutdown => cases work

theorem settings_worked (p : Pager) :
    Ensures x p (fun _ q => q.settings = p.settings) (fun _ q => q.settings = p.settings) :=
  fixes_work host request x work p.settings p rfl

theorem work_succeeds (p : Pager) : Ensures x p (fun reply _ => reply.ends = false) (fun _ _ => True) := by
  have anyway : ∀ {α : Type} (y : M α) (f : α → Reply), (∀ a, (f a).ends = false) →
      Ensures (y >>= fun a => pure (f a)) p (fun reply _ => reply.ends = false) (fun _ _ => True) := by
    intro α y f lasts
    simp only [Ensures, EStateM.run, bind, EStateM.bind, pure, EStateM.pure]
    cases y p with
    | ok a q => exact lasts a
    | error halt q => trivial
  cases request with
  | allocate id template =>
      cases work
      exact anyway _ _ fun _ => rfl
  | free id =>
      cases work
      exact anyway _ _ fun _ => rfl
  | reset id =>
      cases work
      exact anyway _ _ fun _ => rfl
  | shutdown => cases work

end

end Pager

namespace Worker

open Pager

inductive Serves (host : Host) (w : Worker) (ticket : Nat) (request : Request) : Worker → Prop where
  | answered (reply : Reply) (q : Pager) (own : w.pager.ownReply? host request = some reply) (lasts : reply.ends = false)
      (same : q.settings = w.pager.settings) :
      Serves host w ticket request { w with pager := q, mailbox := w.mailbox.answer ticket reply }
  | ended (failure : Failure) (q : Pager) (own : w.pager.ownReply? host request = some (.failed failure))
      (ends : endsWorker failure = true) (same : q.settings = w.pager.settings) :
      Serves host w ticket request
        (finish { w with pager := q, mailbox := w.mailbox.answer ticket (.failed failure) } (.error failure))
  | stopped (asked : request = .shutdown) :
      Serves host w ticket request (finish { w with mailbox := w.mailbox.drop ticket } (.ok ()))
  | crashed (q : Pager) (other : request ≠ .shutdown) (none : w.pager.ownReply? host request = none)
      (same : q.settings = w.pager.settings) :
      Serves host w ticket request (crash { w with pager := q, mailbox := w.mailbox.drop ticket })

section

variable (host : Host) (w : Worker)

theorem conclude_cases (ticket : Nat) (request : Request) (x : M Reply) (work : work? host request = some x) :
    Serves host w ticket request (w.conclude ticket (x.run w.pager)) := by
  have own := own_reply_of_work host request x work w.pager
  have same := settings_worked host request x work w.pager
  have other : request ≠ .shutdown := by
    intro shutdown
    subst shutdown
    cases work
  cases run : x.run w.pager with
  | ok reply q =>
      rw [run] at own
      exact .answered reply q own (ensures_result _ _ _ _ _ _ (work_succeeds host request x work w.pager) run)
        (ensures_result _ _ _ _ _ _ same run)
  | error halt q =>
      have same := ensures_failure _ _ _ _ _ _ same run
      rw [run] at own
      cases halt with
      | failed failure =>
          simp only [conclude]
          by_cases ends : endsWorker failure = true
          · rw [if_pos ends, failure.copy_of_fatal ends]
            exact .ended failure q own ends same
          · rw [if_neg ends]
            exact .answered (.failed failure) q own (Bool.eq_false_iff.mpr ends) same
      | arithmetic fault => exact .crashed q other own same
      | assertion text => exact .crashed q other own same

theorem serve_cases (ticket : Nat) (request : Request) : Serves host w ticket request (w.serve host ticket request) := by
  cases request with
  | shutdown => exact .stopped rfl
  | _ => exact conclude_cases host w ticket _ _ rfl

end

inductive Advances (host : Host) (w : Worker) : Worker → Prop where
  | idle (interrupts : Nat) (station : w.station = .waiting) (silent : w.mailbox.bell.isRung = false) :
      Advances host w { w with interrupts }
  | broken (cause : SystemError) (station : w.station = .waiting) (silent : w.mailbox.bell.isRung = false)
      (strict : host.wait w.pager.settings.waitMillis ≠ .timedOut) :
      Advances host w (finish w (.error (.resource "epoll_wait" cause)))
  | woken (station : w.station = .waiting) (rung : w.mailbox.bell.isRung = true) :
      Advances host w { w with station := .woken, interrupts := 0 }
  | silenced (station : w.station = .woken) :
      Advances host w { w with mailbox := { w.mailbox with bell := .silent }, station := .serving }
  | rested (station : w.station = .serving) (nothing : w.mailbox.next = none) :
      Advances host w { w with station := .waiting }
  | served (ticket : Nat) (request : Request) (mailbox : Mailbox) (after : Worker) (station : w.station = .serving)
      (taken : w.mailbox.next = some (ticket, request, mailbox))
      (serves : Serves host { w with mailbox } ticket request after) : Advances host w after
  | refused (outcome : Outcome) (ticket : Nat) (request : Request) (mailbox : Mailbox)
      (station : w.station = .refusing outcome) (taken : w.mailbox.next = some (ticket, request, mailbox)) :
      Advances host w { w with mailbox := mailbox.refuse ticket request }
  | emptied (outcome : Outcome) (station : w.station = .refusing outcome) (nothing : w.mailbox.next = none) :
      Advances host w { w with station := .closing outcome }
  | closed (outcome : Outcome) (station : w.station = .closing outcome) :
      Advances host w { w with mailbox := w.mailbox.close, station := .closed outcome }
  | gone (outcome : Outcome) (station : w.station = .closed outcome) : Advances host w w

theorem advance_cases (host : Host) (w : Worker) : Advances host w (w.advance host) := by
  obtain ⟨pager, mailbox, station, interrupts⟩ := w
  cases station with
  | waiting =>
      simp only [advance]
      by_cases rung : mailbox.bell.isRung = true
      · rw [if_pos rung]
        exact .woken rfl rung
      · rw [if_neg rung]
        have silent := Bool.eq_false_iff.mpr rung
        cases waited : host.wait pager.settings.waitMillis with
        | timedOut => exact .idle 0 rfl silent
        | interrupted =>
            have strict : host.wait pager.settings.waitMillis ≠ .timedOut := by
              rw [waited]
              exact fun impossible => by cases impossible
            simp only [idle]
            split
            · exact .broken _ rfl silent strict
            · exact .idle _ rfl silent
        | failed cause =>
            refine .broken cause rfl silent ?_
            rw [waited]
            exact fun impossible => by cases impossible
  | woken => exact .silenced rfl
  | serving =>
      cases taken : mailbox.next with
      | none =>
          simp only [advance, taken]
          exact .rested rfl taken
      | some front =>
          obtain ⟨ticket, request, rest⟩ := front
          simp only [advance, taken]
          exact .served ticket request rest _ rfl taken (serve_cases host ⟨pager, rest, .serving, interrupts⟩ ticket request)
  | refusing outcome =>
      cases taken : mailbox.next with
      | none =>
          simp only [advance, taken]
          exact .emptied outcome rfl taken
      | some front =>
          obtain ⟨ticket, request, rest⟩ := front
          simp only [advance, taken]
          exact .refused outcome ticket request rest rfl taken
  | closing outcome => exact .closed outcome rfl
  | closed outcome => exact .gone outcome rfl

inductive Faulted (w : Worker) : Worker → Prop where
  | answered (q : Pager) (same : q.settings = w.pager.settings) : Faulted w { w with pager := q, interrupts := 0 }
  | ended (failure : Failure) (q : Pager) (same : q.settings = w.pager.settings) :
      Faulted w (finish { w with pager := q, interrupts := 0 } (.error failure))
  | crashed (q : Pager) (same : q.settings = w.pager.settings) :
      Faulted w (crash { w with pager := q, interrupts := 0 })

theorem fault_cases (host : Host) (w : Worker) (address : Nat) : Faulted w (w.fault host address) := by
  have same := fixes_resolve w.pager.settings host (address / Page.size * Page.size) w.pager rfl
  rw [fault]
  cases run : (resolve host (address / Page.size * Page.size)).run w.pager with
  | ok _ q => exact .answered q (ensures_result _ _ _ _ _ _ same run)
  | error halt q =>
      have same := ensures_failure _ _ _ _ _ _ same run
      cases halt with
      | failed failure => exact .ended failure q same
      | arithmetic fault => exact .crashed q same
      | assertion text => exact .crashed q same

theorem asked_advance (host : Host) (w : Worker) (i : Nat) : (w.advance host).mailbox.asked i = w.mailbox.asked i := by
  have settled : ∀ ticket request rest progress, w.mailbox.next = some (ticket, request, rest) →
      Mailbox.asked (rest.setProgress ticket progress) i = w.mailbox.asked i := by
    intro ticket request rest progress taken
    obtain ⟨-, -, settled⟩ := Mailbox.settled_of_next w.mailbox rest ticket request progress taken
    exact Mailbox.asked_settled _ _ ticket progress settled i
  have stepped := advance_cases host w
  generalize w.advance host = v at stepped
  cases stepped with
  | served ticket request rest after station taken serves =>
      cases serves with
      | answered reply q own lasts same => exact settled ticket request rest _ taken
      | ended failure q own ends same => exact settled ticket request rest _ taken
      | stopped asked => exact settled ticket request rest _ taken
      | crashed q other none same => exact (Mailbox.asked_close _ i).trans (settled ticket request rest _ taken)
  | refused outcome ticket request rest station taken =>
      rw [Mailbox.refuse_eq]
      exact settled ticket request rest _ taken
  | closed outcome station => exact Mailbox.asked_close _ i
  | _ => rfl

theorem asked_fault (host : Host) (w : Worker) (address i : Nat) :
    (w.fault host address).mailbox.asked i = w.mailbox.asked i := by
  have faulted := fault_cases host w address
  generalize w.fault host address = v at faulted
  cases faulted with
  | crashed q same => exact Mailbox.asked_close _ i
  | _ => rfl

end Worker

end DemandPaging
