import DemandPaging.Proofs.ActionLogs
import DemandPaging.Proofs.Outcomes

set_option autoImplicit false

namespace DemandPaging

def Station.failure? : Station → Option Failure
  | .refusing (.error failure) => some failure
  | _ => none

theorem Station.refusing_of_failure (s : Station) (failure : Failure) (fails : s.failure? = some failure) :
    s = .refusing (.error failure) := by
  cases s with
  | refusing outcome =>
      cases outcome with
      | ok => cases fails
      | error other => exact congrArg (fun f => Station.refusing (.error f)) (Option.some.inj fails)
  | _ => cases fails

variable [Platform]

-- What a fault can fail with that is not refused by the system: its chunk has no filler, or one that failed, or does not fit.
def Failure.OfFill : Failure → Prop
  | .missingFiller | .populate _ _ _ | .budgetExhausted _ _ _ => True
  | _ => False

def Failure.OfInstalling : Failure → Prop
  | .resource call _ => call = "UFFDIO_COPY" ∨ call = "UFFDIO_WAKE"
  | _ => False

namespace Pager

structure Broken (p : Pager) (o : Managed) (i : Nat) (roomy q : Pager) : Prop where
  turns : Turns p.noticed roomy
  absent : ¬ roomy.Resident o.id i
  left : roomy.Fruitless o.id q

section

variable (p q : Pager)

theorem fruitless_frame (id : ObjectId) (left : p.Fruitless id q) :
    q.queue = p.queue ∧ q.counters = p.counters ∧ q.objects.map Managed.mapping = p.objects.map Managed.mapping := by
  obtain ⟨staging, journal, count, rfl⟩ := left
  refine ⟨rfl, rfl, ?_⟩
  simp only [modifyObject, List.map_map]
  apply List.map_congr_left
  intro o _
  simp only [Function.comp]
  split <;> rfl

theorem resident_fruitless (id : ObjectId) (left : p.Fruitless id q) : q.Resident = p.Resident := by
  obtain ⟨queue, -, -⟩ := fruitless_frame p q id left
  funext owner i
  rw [Resident, Resident, live, live, queue]

theorem broken_of_stops (host : Host) (address : Nat) (failure : Failure) (own : failure.OfFill) (ledger : Ledger p)
    (missing : p.Missing address) (stops : FaultStops host p address (.failed failure) q) : ∃ o ∈ p.objects, ∃ k,
      k < o.shape.bodyReserved ∧ address = o.mapping.base + (o.shape.headerPadded + k) ∧
      ∃ roomy, Broken p o (k / o.shape.chunkLen) roomy q := by
  cases stops with
  | nowhere => exact own.elim
  | unzeroed => exact own.elim
  | bringIn o k halt q member inside place stops =>
      have absent : ∀ roomy, Turns p.noticed roomy → ¬ roomy.Resident o.id (k / o.shape.chunkLen) := fun roomy turns resident =>
        missing_chunk p address ledger missing o k member inside place
          (turns_fewer p.noticed roomy (ledger_noticed p ledger) turns o.id _ resident)
      refine ⟨o, member, k, inside, place, ?_⟩
      cases stops with
      | full halt q short =>
          cases short with
          | exhausted q above pass fits large nothing =>
              have turns := turns_of_pass p.noticed q _ pass
              exact ⟨q, turns, absent q turns, fruitless_refl q o.id⟩
          | stalled halt q stalls =>
              obtain ⟨last, queue, -, unreleased⟩ := stalls
              obtain ⟨cause, same⟩ := unreleased.cause
              cases same
              exact own.elim
      | unfilled roomy halt q room failed =>
          have turns := turns_of_room p.noticed roomy _ room
          refine ⟨roomy, turns, absent roomy turns, ?_⟩
          cases failed with
          | missing _ none journal left => exact left
          | failed _ code fails journal left => exact left
      | uninstalled now calls bytes roomy supplied halt q room becomes nowMember sourced there failed =>
          obtain ⟨cause, same | same⟩ := failed.cause <;> cases same <;> exact own.elim

end

end Pager

namespace Worker

open Pager

theorem failed_of_refusing (host : Host) (w : Worker) (address : Nat) (failure : Failure) (serving : w.Serving)
    (ends : (w.fault host address).station = .refusing (.error failure)) :
    ∃ q, (resolve host (address / Page.size * Page.size)).run w.pager = .error (.failed failure) q ∧
      w.fault host address = finish { w with pager := q, interrupts := 0 } (.error failure) := by
  rw [fault] at ends ⊢
  cases run : (resolve host (address / Page.size * Page.size)).run w.pager with
  | ok _ q =>
      simp only [run] at ends
      simp only [Serving, ends] at serving
  | error halt q =>
      simp only [run] at ends ⊢
      cases halt with
      | failed other =>
          cases ends
          exact ⟨q, rfl, rfl⟩
      | arithmetic fault => cases ends
      | assertion text => cases ends

section

variable (settings : Settings) (log : Log) (w : Worker) (logged : Logged settings log w)

include logged

theorem stops_of_logged (host : Host) (address : Nat) (failure : Failure) (serving : w.Serving)
    (ends : (w.fault host address).station = .refusing (.error failure)) :
    ∃ q, (resolve host (address / Page.size * Page.size)).run w.pager = .error (.failed failure) q ∧
      w.fault host address = finish { w with pager := q, interrupts := 0 } (.error failure) ∧
      FaultStops host w.pager (address / Page.size * Page.size) (.failed failure) q := by
  have ledger := (keeps_of_logged settings log w logged serving).ledger
  obtain ⟨q, run, fails⟩ := failed_of_refusing host w address failure serving ends
  exact ⟨q, run, fails, ensures_failure _ _ _ _ _ _ (resolve_ensures host w.pager _ ledger) run⟩

theorem fault_failed (host : Host) (address : Nat) (failure : Failure) (own : failure.OfFill) (faults : w.Faults address)
    (ends : (w.fault host address).station = .refusing (.error failure)) :
    ∃ q, (resolve host (address / Page.size * Page.size)).run w.pager = .error (.failed failure) q ∧
      w.fault host address = finish { w with pager := q, interrupts := 0 } (.error failure) ∧ ∃ o ∈ w.pager.objects, ∃ k,
      k < o.shape.bodyReserved ∧ address / Page.size * Page.size = o.mapping.base + (o.shape.headerPadded + k) ∧
      ∃ roomy, Broken w.pager o (k / o.shape.chunkLen) roomy q := by
  have serving := serving_of_faults settings log w logged address faults
  have ledger := (keeps_of_logged settings log w logged serving).ledger
  have missing := missing_of_logged settings log w logged address faults
  obtain ⟨q, run, fails, stops⟩ := stops_of_logged settings log w logged host address failure serving ends
  exact ⟨q, run, fails, broken_of_stops w.pager q host _ failure own ledger missing stops⟩

end

-- What a write makes of a mapping that no pager minds; everything else leaves it alone.
def writes (a : Act) (m : Mapping) : Mapping :=
  match a with
  | .store address b => if m.holds address then { m with bytes := m.bytes.setByte (address - m.base) b } else m
  | _ => m

def written (log : Log) (m : Mapping) : Mapping :=
  match log with
  | [] => m
  | (_, a) :: older => writes a (written older m)

theorem ending_advance (host : Host) (w : Worker) (ended : ¬ w.Serving) : (w.advance host).ending? = w.ending? := by
  have stepped := advance_cases host w
  generalize w.advance host = v at stepped
  cases stepped with
  | broken cause station => exact absurd (by simp only [Serving, station]) ended
  | woken station => exact absurd (by simp only [Serving, station]) ended
  | silenced station => exact absurd (by simp only [Serving, station]) ended
  | rested station => exact absurd (by simp only [Serving, station]) ended
  | served ticket request mailbox after station => exact absurd (by simp only [Serving, station]) ended
  | emptied outcome station => simp only [ending?, station]
  | closed outcome station => simp only [ending?, station]
  | _ => rfl

section

variable (settings : Settings) (log : Log) (w : Worker) (a : Act)

theorem act_after (ended : ¬ w.Serving) (logged : Logged settings log w) (allowed : w.Allows a) :
    (w.act a).pager = { w.pager with remains := w.pager.remains.map (writes a) } ∧ (w.act a).ending? = w.ending? := by
  have calm : w.pager = { w.pager with remains := w.pager.remains.map fun m => m } := by rw [List.map_id']
  cases a with
  | send request => exact ⟨calm, rfl⟩
  | advance host => exact ⟨(ended_advance host w ended).2.1.trans calm, ending_advance host w ended⟩
  | fault host address => exact absurd allowed ended
  | store address b =>
      have bare := (bare_of_logged settings log w logged ended).1
      refine ⟨?_, rfl⟩
      simp only [act, modifyMapping, bare, List.map_nil]
      rfl

theorem pager_after (later : Log) (v : Worker) (ended : ¬ (w.act a).Serving)
    (logged : Logged settings (later ++ (w, a) :: log) v) :
    ¬ v.Serving ∧ v.ending? = (w.act a).ending? ∧
      v.pager = { (w.act a).pager with remains := (w.act a).pager.remains.map (written later) } := by
  refine logged_since settings log w a (fun later v => ¬ v.Serving ∧ v.ending? = (w.act a).ending? ∧
    v.pager = { (w.act a).pager with remains := (w.act a).pager.remains.map (written later) }) ?_ ?_ later v logged
  · have same : (w.act a).pager.remains.map (written []) = (w.act a).pager.remains := List.map_id' _
    exact ⟨ended, rfl, by rw [same]⟩
  · rintro later u b before allowed ⟨stopped, ending, pager⟩
    obtain ⟨acted, goesOn⟩ := act_after settings _ u b stopped before allowed
    refine ⟨fun serving => stopped (serving_of_act u b serving), goesOn.trans ending, ?_⟩
    rw [acted, pager, List.map_map]
    rfl

end

end Worker

end DemandPaging
