import DemandPaging.Proofs.ActionLogs
import DemandPaging.Proofs.Outcomes

set_option autoImplicit false

namespace DemandPaging

variable [Platform]

theorem End.unserved_of_late (e : End) (request : Request) (reply : Reply) (late : e.Late) (pays : e.Pays request reply) :
    request.Unserved reply := by
  rcases late with rfl | rfl | rfl
  · exact pays
  · exact pays
  · exact pays

namespace Exchange

open Worker Mailbox

def Rung (x : Exchange) : Prop := ∀ i : Nat, x.clients[i]? ≠ some .ringing

theorem reached_of_leads (settings : Settings) (x y : Exchange) (reached : Reached settings x)
    (leads : Relation.ReflTransGen Step x y) : Reached settings y := by
  induction leads with
  | refl => exact reached
  | tail before step ih => exact .stepped _ _ ih step

section

variable (x : Exchange) (rung : x.Rung)

include rung

theorem rung_push (stage : Stage) (quiet : stage ≠ .ringing) (i : Nat) : (x.clients.push stage)[i]? ≠ some .ringing := by
  rw [Array.getElem?_push]
  split
  · exact fun same => quiet (Option.some.inj same)
  · exact rung i

theorem leads_of_send (request : Request) : ∃ y, Relation.ReflTransGen Step x y ∧ y.worker = (x.worker.send request).2 ∧
    y.Rung := by
  by_cases isOpen : x.worker.mailbox.isOpen = true
  · have stage : (x.sent request).clients[x.clients.size]? = some .ringing := by
      simp only [sent, isOpen, if_true, Array.getElem?_push_size]
    refine ⟨_, .tail (.single (.sent x request)) (.rang _ x.clients.size stage), ?_, fun i => ?_⟩
    · simp only [rang, sent, isOpen, if_true, Worker.send, Mailbox.send]
    · simp only [rang, sent, isOpen, if_true, Array.getElem?_setIfInBounds]
      split
      · split
        · split <;> exact fun impossible => by cases impossible
        · exact fun impossible => by cases impossible
      · rename_i other
        rw [Array.getElem?_push, if_neg (Ne.symm other)]
        exact rung i
  · refine ⟨_, .single (.sent x request), ?_, fun i => ?_⟩
    · simp only [sent, isOpen, Bool.false_eq_true, if_false, Worker.send, Mailbox.send]
    · simp only [sent, isOpen, Bool.false_eq_true, if_false]
      exact rung_push x rung _ (fun impossible => by cases impossible) i

theorem leads_of_act (a : Act) (serving : ∀ host address, a = .fault host address → x.worker.Serving) :
    ∃ y, Relation.ReflTransGen Step x y ∧ y.worker = x.worker.act a ∧ y.Rung := by
  cases a with
  | send request => exact leads_of_send x rung request
  | advance host => exact ⟨_, .single (.advanced x host), rfl, rung⟩
  | fault host address => exact ⟨_, .single (.faulted x host address (serving host address rfl)), rfl, rung⟩
  | store address b =>
      exact ⟨_, .single (.altered x address fun m => { m with bytes := m.bytes.setByte (address - m.base) b }), rfl, rung⟩

end

section

variable (settings : Settings) (log : Log) (w : Worker)

theorem leads_of_allowed (x : Exchange) (a : Act) (same : x.worker = w) (rung : x.Rung) (allowed : w.Allows a) :
    ∃ y, Relation.ReflTransGen Step x y ∧ y.worker = w.act a ∧ y.Rung := by
  subst same
  apply leads_of_act x rung a
  rintro host address rfl
  exact allowed

theorem reached_of_logged (logged : Logged settings log w) : ∃ x, Reached settings x ∧ x.worker = w ∧ x.Rung := by
  induction logged with
  | started w start => exact ⟨_, .started w start, rfl, fun i impossible => by cases impossible⟩
  | acted log w a before allowed ih =>
      obtain ⟨x, reached, same, rung⟩ := ih
      obtain ⟨y, leads, after, stillRung⟩ := leads_of_allowed w x a same rung allowed
      exact ⟨y, reached_of_leads settings x y reached leads, after, stillRung⟩

theorem leads_of_logged (a : Act) (later : Log) (v : Worker) (x : Exchange) (same : x.worker = w.act a) (rung : x.Rung)
    (logged : Logged settings (later ++ (w, a) :: log) v) :
    ∃ y, Relation.ReflTransGen Step x y ∧ y.worker = v ∧ y.Rung := by
  refine logged_since settings log w a
    (fun _ v => ∃ y, Relation.ReflTransGen Step x y ∧ y.worker = v ∧ y.Rung) ⟨x, .refl, same, rung⟩ ?_ later v logged
  rintro later u b before allowed ⟨y, leads, middle, yRung⟩
  obtain ⟨z, further, after, zRung⟩ := leads_of_allowed u y b middle yRung allowed
  exact ⟨z, leads.trans further, after, zRung⟩

end

section

variable (settings : Settings) (x : Exchange) (reached : Reached settings x) (ended : ¬ x.worker.Serving)

include reached ended

theorem unserved_of_later (y : Exchange) (leads : Relation.ReflTransGen Step x y) (i : Nat) (request : Request) (reply : Reply)
    (waits : x.worker.mailbox.received? i = none) (asked : y.worker.mailbox.asked i = some request)
    (told : y.worker.mailbox.received? i = some reply) : request.Unserved reply := by
  have sound := sound_of_reached settings x reached
  have after := sound_of_run x y sound leads
  obtain ⟨new, grown, late⟩ := (later_of_run x y leads).ends
  by_cases shutdown : request = .shutdown
  · rw [shutdown]
    trivial
  · obtain ⟨e, member, pays⟩ := pays_of_received _ _ after.accounts i request reply asked told shutdown
    rw [grown] at member
    rcases List.mem_append.mp member with before | later
    · obtain ⟨t, there, settles⟩ := sound.accounts.settled i e before
      obtain ⟨own, received, -⟩ := End.received_of_settled _ i t e there settles
      cases waits.symm.trans received
    · exact e.unserved_of_late request reply (late ended _ later) pays

variable (rung : x.Rung) (host : Host) (request : Request)

include rung

theorem answers_late : ∃ reply, request.Unserved reply ∧ request.Unserved (x.worker.call host request).1 ∧
    ((x.worker.send request).2.settle host).mailbox.received? x.worker.mailbox.tickets.size = some reply := by
  obtain ⟨y, leads, sent, yRung⟩ := leads_of_send x rung request
  have yReached := reached_of_leads settings x y reached leads
  have ySound := sound_of_reached settings y yReached
  have bound := y.worker.busy_le
  have drained := run_drains y ySound host (y.worker.mailbox.queue.length + 6) (alert_of_reached settings y yReached) yRung
    (by omega)
  have run := run_leads host (y.worker.mailbox.queue.length + 6) y
  have settled : (y.run host (y.worker.mailbox.queue.length + 6)).worker = (x.worker.send request).2.settle host := by
    rw [(run_worker host _ y).1, sent]
    rfl
  have zSound := sound_of_run _ _ ySound run
  generalize y.run host (y.worker.mailbox.queue.length + 6) = z at drained run settled zSound
  have asked : z.worker.mailbox.asked x.worker.mailbox.tickets.size = some request := by
    rw [settled, settle, asked_run]
    exact (asked_send x.worker.mailbox request _).trans (if_pos rfl)
  have waits : x.worker.mailbox.received? x.worker.mailbox.tickets.size = none := by
    simp only [received?, Array.getElem?_eq_none (Nat.le_refl _)]
  obtain ⟨e, member⟩ := end_of_drained z zSound drained _ (asked_lt _ request _ asked)
  obtain ⟨t, there, settles⟩ := zSound.accounts.settled _ e member
  obtain ⟨reply, told, -⟩ := End.received_of_settled _ _ t e there settles
  have unserved := unserved_of_later settings x reached ended z (leads.trans run) _ request reply waits asked told
  rw [settled] at told
  refine ⟨reply, unserved, ?_, told⟩
  by_cases isOpen : x.worker.mailbox.isOpen = true
  · have sends : x.worker.send request = (.ok (), (x.worker.send request).2) := by
      simp only [Worker.send, Mailbox.send, isOpen, if_true]
    rw [call, sends]
    simp only [told, Option.getD_some]
    exact unserved
  · have fails : x.worker.send request = (.error .shuttingDown, (x.worker.send request).2) := by
      simp only [Worker.send, Mailbox.send, isOpen, Bool.false_eq_true, if_false]
    rw [call, fails]
    exact End.unserved_of_failed_send request

end

end Exchange

end DemandPaging
