import DemandPaging.Proofs.Chronicle
import DemandPaging.Proofs.PlainMemory
import DemandPaging.Proofs.Retiring

set_option autoImplicit false

namespace DemandPaging

variable [Platform]

inductive Act where
  | send (request : Request)
  | advance (host : Host)
  | fault (host : Host) (address : Nat)
  | store (address : Nat) (b : UInt8)

namespace Worker

open Pager

def act (w : Worker) : Act → Worker
  | .send request => (w.send request).2
  | .advance host => w.advance host
  | .fault host address => w.fault host address
  | .store address b => w.modifyMapping address fun m => { m with bytes := m.bytes.setByte (address - m.base) b }

-- An allocation is served under a number that no live object has; faults come at any address; bytes are written where the
-- page does not have to be brought in first.
def Allows (w : Worker) : Act → Prop
  | .send _ => True
  | .advance host => host.Orderly ∧ host.Releases ∧ ∀ ticket id template mailbox,
      w.mailbox.next = some (ticket, .allocate id template, mailbox) → ∀ o ∈ w.pager.objects, o.id ≠ id
  | .fault _ _ => w.Serving
  | .store address _ => (∃ m, w.mappingAt? address = some m) ∧ ¬ w.Faults address

abbrev Log := List (Worker × Act)

inductive Logged (settings : Settings) : Log → Worker → Prop where
  | started (w : Worker) (start : Worker.start settings = .ok w) : Logged settings [] w
  | acted (log : Log) (w : Worker) (a : Act) (before : Logged settings log w) (allowed : w.Allows a) :
      Logged settings ((w, a) :: log) (w.act a)

section

variable (settings : Settings) (log : Log) (w : Worker) (a : Act)

theorem logged_split (later : Log) (v : Worker) (logged : Logged settings (later ++ (w, a) :: log) v) :
    Logged settings log w ∧ w.Allows a := by
  generalize whole : later ++ (w, a) :: log = past at logged
  induction later generalizing v past with
  | nil =>
      cases whole
      cases logged with
      | acted _ _ _ before allowed => exact ⟨before, allowed⟩
  | cons last later ih =>
      cases whole
      cases logged with
      | acted _ u b before allowed => exact ih u _ rfl before

theorem logged_since (holds : Log → Worker → Prop) (first : holds [] (w.act a))
    (next : ∀ later u b, Logged settings (later ++ (w, a) :: log) u → u.Allows b → holds later u →
      holds ((u, b) :: later) (u.act b))
    (later : Log) (v : Worker) (logged : Logged settings (later ++ (w, a) :: log) v) : holds later v := by
  generalize whole : later ++ (w, a) :: log = past at logged
  induction later generalizing v past with
  | nil =>
      cases whole
      cases logged
      exact first
  | cons last later ih =>
      cases whole
      cases logged with
      | acted _ u b before allowed => exact next later u b before allowed (ih u _ rfl before)

end

-- The request that the worker answers in doing this, and its reply.
def answering? (w : Worker) : Act → Option (Request × Reply)
  | .advance host =>
    match w.station, w.mailbox.next with
    | .serving, some (ticket, request, _) => ((w.advance host).mailbox.received? ticket).map fun reply => (request, reply)
    | _, _ => none
  | _ => none

theorem serving_of_act (w : Worker) (a : Act) (serving : (w.act a).Serving) : w.Serving := by
  cases a with
  | send request => exact serving
  | advance host => exact by_contra fun ended => advance_ended host w ended serving
  | fault host address => exact fault_serving host w address serving
  | store address b => exact serving

theorem present_of_calm (w : Worker) (address : Nat) (m : Mapping) (ledger : Ledger w.pager)
    (found : w.mappingAt? address = some m) (calm : ¬ w.Faults address) : m.isPresent (address - m.base) = true := by
  obtain ⟨o, member, -, rfl⟩ := (mapping_at_iff w address m ledger).mp found
  by_contra missing
  exact calm ⟨o.mapping, found, Bool.eq_false_iff.mpr missing, ledger.watched o member⟩

theorem reachable_of_logged (settings : Settings) (log : Log) (w : Worker) (logged : Logged settings log w)
    (serving : w.Serving) : Reachable settings w := by
  induction logged with
  | started w start => exact .started w start
  | acted log w a before allowed ih =>
      have earlier := ih (serving_of_act w a serving)
      cases a with
      | send request => exact .sent w request earlier
      | advance host => exact .advanced host allowed.2.1 w earlier allowed.2.2
      | fault host address => exact .faulted host w address earlier
      | store address b =>
          obtain ⟨⟨m, found⟩, calm⟩ := allowed
          have ledger := (keeps_of_reachable settings w earlier serving).ledger
          exact .stored w address m b earlier found (present_of_calm w address m ledger found calm)

section

variable (settings : Settings) (log : Log) (w : Worker) (logged : Logged settings log w)

include logged

theorem keeps_of_logged (serving : w.Serving) : Keeps settings w.pager :=
  keeps_of_reachable settings w (reachable_of_logged settings log w logged serving) serving

theorem storeless_of_logged (serving : w.Serving) : w.pager.Storeless :=
  storeless_of_reachable settings w (reachable_of_logged settings log w logged serving) serving

theorem counted_of_logged (serving : w.Serving) : w.pager.Counted :=
  counted_of_reachable settings w (reachable_of_logged settings log w logged serving) serving

theorem aligned_of_logged (serving : w.Serving) : w.pager.Aligned := by
  induction logged with
  | started w start =>
      obtain ⟨p, started, rfl⟩ := start_eq settings w start
      exact aligned_start p settings started
  | acted log w a before allowed ih =>
      have earlier := serving_of_act w a serving
      have ledger := (keeps_of_logged settings log w before earlier).ledger
      cases a with
      | send request => exact ih earlier
      | advance host =>
          obtain ⟨-, same | ⟨ticket, request, mailbox, reply, -, served⟩⟩ :=
            advance_served host allowed.2.1 w (fun _ => ledger) serving
          · exact (show (w.advance host).pager = w.pager from same) ▸ ih earlier
          · exact aligned_served w.pager host allowed.1 (ih earlier) _ request reply ledger served
      | fault host address =>
          obtain ⟨q, run, -, resolved⟩ := resolved_of_serving host w address ledger serving
          rw [act, fault_answered host w address q run]
          exact aligned_lasts w.pager q (ih earlier) (resolved_lasts w.pager _ q ledger resolved)
      | store address b =>
          obtain ⟨⟨m, found⟩, calm⟩ := allowed
          obtain ⟨o, member, holds, rfl⟩ := (mapping_at_iff w address m ledger).mp found
          rw [act, modify_mapping_eq w o address _ ledger member holds]
          exact aligned_lasts w.pager _ (ih earlier)
            (stored_lasts w.pager o (address - o.mapping.base) b ledger member)

theorem bare_of_logged (ended : ¬ w.Serving) : w.pager.objects = [] ∧ w.pager.watched = [] := by
  induction logged with
  | started w start =>
      obtain ⟨p, -, rfl⟩ := start_eq settings w start
      exact absurd trivial ended
  | acted log w a before allowed ih =>
      cases a with
      | send request => exact ih ended
      | advance host =>
          have stepped := advance_cases host w
          rw [act] at ended ⊢
          generalize w.advance host = v at stepped ended
          cases stepped with
          | served ticket request mailbox after station taken serves =>
              cases serves with
              | answered => exact absurd (by simp only [Serving, station]) ended
              | ended => exact ⟨rfl, rfl⟩
              | stopped => exact ⟨rfl, rfl⟩
              | crashed => exact ⟨rfl, rfl⟩
          | idle interrupts station => exact absurd (by simp only [Serving, station]) ended
          | broken => exact ⟨rfl, rfl⟩
          | woken => exact absurd trivial ended
          | silenced => exact absurd trivial ended
          | rested => exact absurd trivial ended
          | refused outcome ticket request mailbox station => exact ih (by simp only [Serving, station, not_false_eq_true])
          | emptied outcome station => exact ih (by simp only [Serving, station, not_false_eq_true])
          | closed outcome station => exact ih (by simp only [Serving, station, not_false_eq_true])
          | gone outcome station => exact ih (by simp only [Serving, station, not_false_eq_true])
      | fault host address =>
          have faulted := fault_cases host w address
          rw [act] at ended ⊢
          generalize w.fault host address = v at faulted ended
          cases faulted with
          | answered q same => exact absurd allowed ended
          | ended => exact ⟨rfl, rfl⟩
          | crashed => exact ⟨rfl, rfl⟩
      | store address b =>
          obtain ⟨objects, watched⟩ := ih ended
          exact ⟨by simp only [act, modifyMapping, objects, List.map_nil], watched⟩

theorem serving_of_faults (address : Nat) (faults : w.Faults address) : w.Serving := by
  by_contra ended
  obtain ⟨m, -, -, watched⟩ := faults
  rw [(bare_of_logged settings log w logged ended).2] at watched
  cases watched

theorem missing_of_logged (address : Nat) (faults : w.Faults address) :
    w.pager.Missing (address / Page.size * Page.size) := by
  have serving := serving_of_faults settings log w logged address faults
  have ledger := (keeps_of_logged settings log w logged serving).ledger
  have aligned := aligned_of_logged settings log w logged serving
  obtain ⟨m, found, missing, watched⟩ := faults
  obtain ⟨o, member, holds, rfl⟩ := (mapping_at_iff w address m ledger).mp found
  have start := page_start o.mapping.base address (aligned o.mapping.span
    ((mem_spans w.pager _).mpr ⟨o, member, List.mem_cons_self⟩)) holds.1
  have atStart := page_holds w.pager o address aligned member holds
  refine missing_of_faults w _ ledger ⟨o.mapping, (mapping_at_iff w _ _ ledger).mpr ⟨o, member, atStart, rfl⟩, ?_, watched⟩
  rw [start, Nat.add_sub_cancel_left, Mapping.isPresent, Nat.mul_div_cancel _ Page.size_pos]
  exact missing

end

theorem received_answered (m next : Mailbox) (ticket : Nat) (request : Request) (reply : Reply)
    (taken : m.next = some (ticket, request, next)) : (next.answer ticket reply).received? ticket = some reply := by
  obtain ⟨-, asked, settled⟩ := Mailbox.settled_of_next m next ticket request (.answered reply) taken
  obtain ⟨t, there, -⟩ := Option.map_eq_some_iff.mp asked
  have answered := settled.tickets ticket
  rw [there, Option.map_some, if_pos rfl] at answered
  rw [Mailbox.received?, Mailbox.answer, answered]

theorem advance_answering (host : Host) (releases : host.Releases) (w : Worker) (ledger : Ledger w.pager)
    (serving : (w.advance host).Serving) :
    (w.answering? (.advance host) = none ∧ (w.advance host).pager = w.pager) ∨
      ∃ ticket request mailbox reply, w.mailbox.next = some (ticket, request, mailbox) ∧
        w.answering? (.advance host) = some (request, reply) ∧ Served host w.pager request reply (w.advance host).pager := by
  obtain ⟨pager, mailbox, station, interrupts⟩ := w
  cases station with
  | waiting =>
      refine Or.inl ⟨rfl, ?_⟩
      simp only [advance] at serving ⊢
      by_cases rung : mailbox.bell.isRung = true
      · rw [if_pos rung]
      · rw [if_neg rung] at serving ⊢
        obtain ⟨count, same⟩ := idle_serving _ _ serving
        rw [same]
  | woken => exact Or.inl ⟨rfl, rfl⟩
  | serving =>
      cases taken : mailbox.next with
      | none => exact Or.inl ⟨by simp only [answering?, taken], by simp only [advance, taken]⟩
      | some front =>
          obtain ⟨ticket, request, rest⟩ := front
          have steps : (⟨pager, mailbox, .serving, interrupts⟩ : Worker).advance host =
              (⟨pager, rest, .serving, interrupts⟩ : Worker).serve host ticket request := by simp only [advance, taken]
          rw [steps] at serving
          obtain ⟨reply, q, served, same⟩ :=
            serve_served host releases ⟨pager, rest, .serving, interrupts⟩ ticket request ledger serving
          have received := received_answered mailbox rest ticket request reply taken
          refine Or.inr ⟨ticket, request, rest, reply, rfl, ?_, by rw [steps, same]; exact served⟩
          simp only [answering?, taken, steps, same, received, Option.map_some]
  | refusing outcome => exact absurd serving (advance_ended host _ id)
  | closing outcome => exact absurd serving (advance_ended host _ id)
  | closed outcome => exact absurd serving (advance_ended host _ id)

def Move.act (host : Host) : Move → Act
  | .send request => .send request
  | .advance => .advance host
  | .fault address => .fault host address
  | .store address b => .store address b

def logs (host : Host) : Log → Worker → List Move → Log
  | log, _, [] => log
  | log, w, move :: moves => logs host ((w, move.act host) :: log) (w.make host move) moves

theorem logged_of_moves (settings : Settings) (host : Host) (orderly : host.Orderly) (releases : host.Releases)
    (moves : List Move) (log : Log) (w : Worker) (logged : Logged settings log w)
    (permitted : w.permitsAll host moves = true) : Logged settings (logs host log w moves) (w.makes host moves) := by
  induction moves generalizing log w with
  | nil => exact logged
  | cons move moves ih =>
      rw [permitsAll, Bool.and_eq_true] at permitted
      refine ih _ _ ?_ permitted.2
      cases move with
      | send request => exact .acted log w (.send request) logged trivial
      | advance => exact .acted log w (.advance host) logged ⟨orderly, releases, fresh_of_permits w permitted.1⟩
      | fault address => exact .acted log w (.fault host address) logged (of_decide_eq_true permitted.1 : w.Serving)
      | store address b =>
          obtain ⟨m, found, present⟩ := mapping_of_permits w address b permitted.1
          refine .acted log w (.store address b) logged ⟨⟨m, found⟩, fun faults => ?_⟩
          obtain ⟨other, same, missing, -⟩ := faults
          cases found.symm.trans same
          cases present.symm.trans missing

end Worker

end DemandPaging

namespace DemandPaging.Worker

attribute [local instance] Platform.small

theorem logged_pressed : ∃ log, Logged .threePages log (pressed 4) := by
  have orderly := Host.plain_orderly []
  have releases := (Host.plain_yields []).releases
  have before := logged_of_moves _ _ orderly releases (granting 4) [] _ (.started _ start_first) (by decide +kernel)
  exact ⟨_, logged_of_moves _ _ orderly releases pressing _ _ before (by decide +kernel)⟩

end DemandPaging.Worker
