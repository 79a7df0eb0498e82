import DemandPaging.Proofs.MissingPages
import DemandPaging.Proofs.Tickets

set_option autoImplicit false

namespace DemandPaging

variable [Platform]

def Managed.ticket (o : Managed) : Mailbox.Ticket :=
  Mailbox.grantedTicket o.id o.template ⟨o.mapping.base, o.mapping.len⟩

theorem Managed.ticket_becomes (o later : Managed) (becomes : o.Becomes later) : later.ticket = o.ticket := by
  rw [ticket, ticket, becomes.id, becomes.template, becomes.base, becomes.len]

theorem Managed.ticket_granted (o : Managed) (id : ObjectId) (template : Template) (grant : Grant)
    (same : o.ticket = Mailbox.grantedTicket id template grant) :
    o.id = id ∧ o.template = template ∧ o.mapping.base = grant.base ∧ o.mapping.len = grant.size := by
  simp only [ticket, Mailbox.grantedTicket, Mailbox.Ticket.mk.injEq, Request.allocate.injEq,
    Mailbox.Progress.answered.injEq, Reply.granted.injEq] at same
  obtain ⟨⟨id, template⟩, rfl⟩ := same
  exact ⟨id, template, rfl, rfl⟩

namespace Worker

open Pager Mailbox

structure Desk (settings : Settings) (w : Worker) (n : Nat) : Prop where
  keeps : Keeps settings w.pager
  aligned : w.pager.Aligned
  history : w.mailbox.History
  line : w.mailbox.Line n
  granted : ∀ (i : Nat) (id : ObjectId) (template : Template) (grant : Grant),
    w.mailbox.tickets[i]? = some (grantedTicket id template grant) →
    (∀ j, j < n → w.mailbox.asked j ≠ some (.free id)) →
    ∃ o ∈ w.pager.objects, o.ticket = grantedTicket id template grant
  listed : ∀ o ∈ w.pager.objects, ∃ i : Nat, w.mailbox.tickets[i]? = some o.ticket

theorem refusal_fits (id : ObjectId) (template : Template) (failure : Failure) (some : template.shape.size ≠ 0)
    (refusal : Refusal template failure) : (Request.allocate id template).Fits (.failed failure) := by
  cases failure with
  | emptyObject => exact absurd refusal some
  | chunkExceedsBudget chunk high => trivial
  | resource operation cause => trivial
  | _ => exact refusal.elim

theorem served_objects (host : Host) (p q : Pager) (request : Request) (reply : Reply) (ledger : Ledger p)
    (fresh : ∀ id template, request = .allocate id template → ∀ o ∈ p.objects, o.id ≠ id)
    (served : Served host p request reply q) :
    (∀ o ∈ p.objects, request ≠ .free o.id → ∃ later ∈ q.objects, later.ticket = o.ticket) ∧
    (∀ later ∈ q.objects, (∃ o ∈ p.objects, later.ticket = o.ticket) ∨ later.ticket = ⟨request, .answered reply⟩) ∧
    ∀ id template grant, request = .allocate id template → reply = .granted grant →
      ∃ o ∈ q.objects, o.ticket = grantedTicket id template grant := by
  cases served with
  | allocated id template grant q allocated =>
      obtain ⟨base, swap, index, placed, sound, listed, affordable, opens⟩ := allocated
      have stays : ∀ o ∈ p.objects, o ∈ (p.grown (freshObject id template base swap) index).objects := fun o member =>
        List.mem_cons_of_mem _ (List.mem_filter.mpr ⟨member, decide_eq_true (fresh id template rfl o member)⟩)
      refine ⟨fun o member _ => ⟨o, stays o member, rfl⟩, fun later member => ?_, fun other t g same granted => ?_⟩
      · rcases List.mem_cons.mp member with rfl | old
        · exact Or.inr rfl
        · exact Or.inl ⟨later, (List.mem_filter.mp old).1, rfl⟩
      · cases same
        cases granted
        exact ⟨_, List.mem_cons_self, rfl⟩
  | refused request failure =>
      exact ⟨fun o member _ => ⟨o, member, rfl⟩, fun o member => Or.inl ⟨o, member, rfl⟩,
        fun _ _ _ _ impossible => by cases impossible⟩
  | freed x index member sound removed =>
      refine ⟨fun o oMember other => ⟨o, List.mem_filter.mpr ⟨oMember, decide_eq_true fun same => other ?_⟩, rfl⟩,
        fun o oMember => Or.inl ⟨o, (List.mem_filter.mp oMember).1, rfl⟩, fun _ _ _ impossible => by cases impossible⟩
      rw [same]
  | emptied x member =>
      have lasts := lasts_revised p x (p.emptied x) (cleared x) ledger.ids member (cleared_becomes x) rfl
      refine ⟨fun o oMember _ => ?_, fun later laterMember => ?_, fun _ _ _ impossible => by cases impossible⟩
      · obtain ⟨later, laterMember, becomes⟩ := lasts.forth o oMember
        exact ⟨later, laterMember, o.ticket_becomes later becomes⟩
      · obtain ⟨o, oMember, becomes⟩ := lasts.back later laterMember
        exact Or.inl ⟨o, oMember, o.ticket_becomes later becomes⟩

theorem refusal_goes_on (template : Template) (failure : Failure) (refusal : Refusal template failure) :
    endsWorker failure = false := by
  cases failure with
  | chunkExceedsBudget chunk high => rfl
  | emptyObject => rfl
  | resource operation cause => rfl
  | _ => exact refusal.elim

theorem conclude_answers (w : Worker) (ticket : Nat) (x : M Reply) (good : Reply → Pager → Prop)
    (ensures : Ensures x w.pager good
      (fun halt q => ∃ failure, halt = .failed failure ∧ endsWorker failure = false ∧ good (.failed failure) q)) :
    ∃ reply q, good reply q ∧ w.conclude ticket (x.run w.pager) =
      { w with pager := q, mailbox := w.mailbox.answer ticket reply } := by
  cases run : x.run w.pager with
  | ok reply q => exact ⟨reply, q, ensures_result _ _ _ _ _ _ ensures run, rfl⟩
  | error halt q =>
      obtain ⟨failure, rfl, goesOn, holds⟩ := ensures_failure _ _ _ _ _ _ ensures run
      refine ⟨.failed failure, q, holds, ?_⟩
      simp only [conclude, goesOn, Bool.false_eq_true, if_false]

section

variable (settings : Settings) (w : Worker) (n : Nat) (desk : Desk settings w n)

include desk

theorem live_of_use (id : ObjectId) (uses : w.mailbox.asked n = some (.free id) ∨ w.mailbox.asked n = some (.reset id)) :
    ∃ o ∈ w.pager.objects, o.id = id := by
  obtain ⟨i, template, grant, there⟩ := desk.history.known n id uses
  have unfreed : ∀ j, j < n → w.mailbox.asked j ≠ some (.free id) := by
    intro j before freed
    rcases uses with free | reset
    · exact absurd (desk.history.frees j n id freed free) (Nat.ne_of_lt before)
    · exact absurd (desk.history.resets n j id reset freed) (Nat.lt_asymm before)
  obtain ⟨o, member, same⟩ := desk.granted i id template grant there unfreed
  exact ⟨o, member, (o.ticket_granted id template grant same).1⟩

theorem fresh_of_line (id : ObjectId) (template : Template) (t : Ticket) (there : w.mailbox.tickets[n]? = some t)
    (allocates : t.request = .allocate id template) : ∀ o ∈ w.pager.objects, o.id ≠ id := by
  intro o member same
  subst same
  obtain ⟨i, listed⟩ := desk.listed o member
  have first : w.mailbox.asked i = some (.allocate o.id o.template) := by
    rw [asked, listed]
    rfl
  have second : w.mailbox.asked n = some (.allocate o.id template) := by
    rw [asked, there, Option.map_some, allocates]
  have same := desk.history.ids i n o.id o.template template first second
  subst same
  have queued := desk.line.waiting i t (Nat.le_refl i) there
  rw [listed] at there
  cases there
  cases queued

theorem asked_of_listed (o : Managed) (member : o ∈ w.pager.objects) :
    ∃ i, w.mailbox.asked i = some (.allocate o.id o.template) := by
  obtain ⟨i, listed⟩ := desk.listed o member
  refine ⟨i, ?_⟩
  rw [asked, listed]
  rfl

theorem filler_of_listed (o : Managed) (member : o ∈ w.pager.objects) : o.template.filler ≠ none := by
  obtain ⟨i, asked⟩ := asked_of_listed settings w n desk o member
  have given := (desk.history.allocations i o.id o.template asked).1
  intro none
  rw [none] at given
  cases given

theorem allocate_served (host : Host) (orderly : host.Orderly) (id : ObjectId) (template : Template)
    (asked : w.mailbox.asked n = some (.allocate id template)) :
    Ensures (allocate host id template) w.pager
      (fun grant q => Served host w.pager (.allocate id template) (.granted grant) q ∧
        (Request.allocate id template).Fits (.granted grant))
      (fun halt q => q = w.pager ∧ ∃ failure, halt = .failed failure ∧ Refusal template failure ∧
        (Request.allocate id template).Fits (.failed failure)) := by
  have some := (desk.history.allocations n id template asked).2
  apply ensures_mono _ _ _ _ _ _
    (allocate_placed w.pager host orderly desk.aligned id template desk.keeps.ledger.toCatalogue some)
  · intro grant q allocated
    refine ⟨.allocated id template grant q allocated, ?_⟩
    cases allocated
    exact rfl
  · intro halt q failed
    obtain ⟨rfl, failure, rfl, refusal⟩ := failed
    exact ⟨rfl, failure, rfl, refusal, refusal_fits id template failure some refusal⟩

theorem free_served (host : Host) (id : ObjectId) (asked : w.mailbox.asked n = some (.free id)) :
    Ensures (free id) w.pager (fun _ q => Served host w.pager (.free id) .done q) (fun _ _ => False) := by
  obtain ⟨o, member, rfl⟩ := live_of_use settings w n desk id (Or.inl asked)
  apply ensures_mono _ _ _ _ _ _ (free_ensures w.pager o desk.keeps.ledger member)
  · intro _ q done
    obtain ⟨index, sound, removed, rfl⟩ := done
    exact .freed o index member sound removed
  · exact fun _ _ impossible => impossible

theorem reset_served (host : Host) (releases : host.Releases) (id : ObjectId) (asked : w.mailbox.asked n = some (.reset id)) :
    Ensures (reset host id) w.pager (fun _ q => Served host w.pager (.reset id) .done q) (fun _ _ => False) := by
  obtain ⟨o, member, rfl⟩ := live_of_use settings w n desk id (Or.inr asked)
  apply ensures_mono _ _ _ _ _ _ (reset_ensures w.pager o host desk.keeps.ledger member)
  · intro _ q same
    subst same
    exact .emptied o member
  · exact fun _ _ failed => absurd releases failed.1

theorem serve_answers (host : Host) (orderly : host.Orderly) (releases : host.Releases) (t : Ticket) (mailbox : Mailbox)
    (there : w.mailbox.tickets[n]? = some t) (other : t.request ≠ .shutdown) :
    ∃ reply q, (Served host w.pager t.request reply q ∧ t.request.Fits reply) ∧
      ({ w with mailbox } : Worker).serve host n t.request = { w with pager := q, mailbox := mailbox.answer n reply } := by
  have asked : w.mailbox.asked n = some t.request := by rw [asked, there, Option.map_some]
  cases request : t.request with
  | allocate id template =>
      rw [request] at asked
      apply conclude_answers { w with mailbox } n _ _
      rw [ensures_bind]
      apply ensures_mono _ _ _ _ _ _ (allocate_served settings w n desk host orderly id template asked)
      · exact fun _ _ served => served
      · intro halt q failed
        obtain ⟨rfl, failure, rfl, refusal, fits⟩ := failed
        exact ⟨failure, rfl, refusal_goes_on template failure refusal, .refused _ failure, fits⟩
  | free id =>
      rw [request] at asked
      apply conclude_answers { w with mailbox } n _ _
      rw [ensures_bind]
      exact ensures_mono _ _ _ _ _ _ (free_served settings w n desk host id asked) (fun _ _ served => ⟨served, trivial⟩)
        (fun _ _ impossible => impossible.elim)
  | reset id =>
      rw [request] at asked
      apply conclude_answers { w with mailbox } n _ _
      rw [ensures_bind]
      exact ensures_mono _ _ _ _ _ _ (reset_served settings w n desk host releases id asked) (fun _ _ served => ⟨served, trivial⟩)
        (fun _ _ impossible => impossible.elim)
  | shutdown => exact absurd request other

theorem desk_served (host : Host) (orderly : host.Orderly) (t : Ticket) (reply : Reply) (q : Pager) (mailbox : Mailbox)
    (station : Station) (there : w.mailbox.tickets[n]? = some t) (serves : Served host w.pager t.request reply q)
    (settled : w.mailbox.Settled n (.answered reply) mailbox) :
    Desk settings { w with pager := q, mailbox, station } (n + 1) := by
  have ledger := desk.keeps.ledger
  have fresh : ∀ id template, t.request = .allocate id template → ∀ o ∈ w.pager.objects, o.id ≠ id :=
    fun id template allocates => fresh_of_line settings w n desk id template t there allocates
  have asked := asked_settled w.mailbox mailbox n _ settled
  have served : mailbox.tickets[n]? = some ⟨t.request, .answered reply⟩ := by
    rw [settled.tickets, there, Option.map_some, if_pos rfl]
  have stays : ∀ (i : Nat) (id : ObjectId) (template : Template) (grant : Grant),
      w.mailbox.tickets[i]? = some (grantedTicket id template grant) →
      mailbox.tickets[i]? = some (grantedTicket id template grant) := fun i id template grant before =>
    answered_settled w.mailbox mailbox n _ desk.line settled i _ _ before rfl
  have keeps := served_keeps w.pager settings host q t.request reply desk.keeps fresh serves
  have aligned := aligned_served w.pager host orderly desk.aligned q t.request reply ledger serves
  obtain ⟨forth, back, new⟩ := served_objects host w.pager q t.request reply ledger fresh serves
  have inside := (Array.getElem?_eq_some_iff.mp there).1
  refine ⟨keeps, aligned, history_settled w.mailbox mailbox n _ desk.line desk.history settled,
    line_settled w.mailbox mailbox n _ desk.line settled inside, fun i id template grant granted unfreed => ?_,
    fun later member => ?_⟩
  · by_cases newest : i = n
    · subst newest
      have same := Option.some.inj (served.symm.trans granted)
      simp only [grantedTicket, Ticket.mk.injEq, Progress.answered.injEq] at same
      exact new id template grant same.1 same.2
    · have before : w.mailbox.tickets[i]? = some (grantedTicket id template grant) := by
        have tickets := settled.tickets i
        simp only [if_neg newest, Option.map_id'] at tickets
        exact tickets.symm.trans granted
      obtain ⟨o, member, same⟩ := desk.granted i id template grant before fun j earlier =>
        asked j ▸ unfreed j (Nat.lt_succ_of_lt earlier)
      have other : t.request ≠ .free o.id := by
        intro frees
        apply unfreed n (Nat.lt_succ_self n)
        rw [Mailbox.asked, served, Option.map_some, frees, (o.ticket_granted id template grant same).1]
      obtain ⟨later, laterMember, laterSame⟩ := forth o member other
      exact ⟨later, laterMember, laterSame.trans same⟩
  · rcases back later member with ⟨o, oMember, same⟩ | same
    · obtain ⟨i, before⟩ := desk.listed o oMember
      exact ⟨i, same ▸ stays i _ _ _ before⟩
    · exact ⟨n, same ▸ served⟩

theorem desk_lasts (q : Pager) (station : Station) (interrupts : Nat) (keeps : Keeps settings q) (lasts : Lasts w.pager q) :
    Desk settings { w with pager := q, station, interrupts } n := by
  refine ⟨keeps, aligned_lasts w.pager q desk.aligned lasts, desk.history, desk.line,
    fun i id template grant there unfreed => ?_, fun later member => ?_⟩
  · obtain ⟨o, member, same⟩ := desk.granted i id template grant there unfreed
    obtain ⟨later, laterMember, becomes⟩ := lasts.forth o member
    exact ⟨later, laterMember, (o.ticket_becomes later becomes).trans same⟩
  · obtain ⟨o, oMember, becomes⟩ := lasts.back later member
    obtain ⟨i, there⟩ := desk.listed o oMember
    exact ⟨i, (o.ticket_becomes later becomes).symm ▸ there⟩

end

def ending? (w : Worker) : Option Outcome :=
  match w.station with
  | .refusing outcome | .closing outcome | .closed outcome => some outcome
  | _ => none

-- Touching the address is a fault: its page is missing, and the pager watches the range.
def Faults (w : Worker) (address : Nat) : Prop :=
  ∃ m, w.mappingAt? address = some m ∧ m.isPresent (address - m.base) = false ∧ m.span ∈ w.pager.watched

def Reaches (w : Worker) (address : Nat) : Prop :=
  ∃ id grant, w.mailbox.Holds id grant ∧ grant.base ≤ address ∧ address < grant.base + grant.size

theorem object_of_reaches (settings : Settings) (w : Worker) (n address : Nat) (desk : Desk settings w n)
    (reaches : w.Reaches address) : ∃ o ∈ w.pager.objects, o.entry.Holds address := by
  obtain ⟨id, grant, ⟨⟨i, template, there⟩, unfreed⟩, low, high⟩ := reaches
  obtain ⟨o, member, same⟩ := desk.granted i id template grant there fun j _ => unfreed j
  obtain ⟨-, -, base, len⟩ := o.ticket_granted id template grant same
  rw [← base] at low high
  rw [← len] at high
  exact ⟨o, member, low, high⟩

theorem fault_justified (host : Host) (yields : host.Yields) (settings : Settings) (w : Worker) (n address : Nat)
    (desk : Desk settings w n)
    (reaches : w.Reaches address) (faults : w.Faults address) :
    Ensures (resolve host (address / Page.size * Page.size)) w.pager
      (fun _ q => Keeps settings q ∧ Lasts w.pager q)
      (fun halt _ => ∃ o ∈ w.pager.objects, Justified settings.low o.template halt) := by
  have ledger := desk.keeps.ledger
  obtain ⟨o, member, low, high⟩ := object_of_reaches settings w n address desk reaches
  obtain ⟨m, found, missing, -⟩ := faults
  obtain ⟨x, xMember, xHolds, rfl⟩ := (mapping_at_iff w address m ledger).mp found
  have own := same_of_address w.pager o x address ledger.toCatalogue member xMember ⟨low, high⟩ xHolds
  subst own
  apply ensures_mono _ _ _ _ _ _ (missing_ensures w.pager o host yields address ledger desk.aligned member ⟨low, high⟩
    missing (filler_of_listed settings w n desk o member))
  · intro _ q done
    obtain ⟨whole, resolved⟩ := done
    exact ⟨⟨whole, (settings_resolved w.pager q _ resolved).trans desk.keeps.settings⟩,
      resolved_lasts w.pager _ q ledger resolved⟩
  · exact fun halt _ justified => ⟨o, member, desk.keeps.settings ▸ justified⟩

-- The workers that come about when clients keep to their handles: they ask for what they may ask for and touch memory of
-- objects that they hold, in any order, while the worker takes its steps. The system places mappings well and does what a
-- fault and a wait ask of it.
inductive Driven (settings : Settings) : Worker → Prop where
  | started (w : Worker) (start : Worker.start settings = .ok w) : Driven settings w
  | sent (w : Worker) (request : Request) (before : Driven settings w) (admits : w.mailbox.Admits request) :
      Driven settings (w.send request).2
  | advanced (host : Host) (orderly : host.Orderly) (yields : host.Yields) (w : Worker) (before : Driven settings w) :
      Driven settings (w.advance host)
  | touched (host : Host) (yields : host.Yields) (w : Worker) (address : Nat) (before : Driven settings w)
      (reaches : w.Reaches address) (faults : w.Faults address) : Driven settings (w.fault host address)
  | stored (w : Worker) (address : Nat) (b : UInt8) (before : Driven settings w) (reaches : w.Reaches address)
      (calm : ¬ w.Faults address) :
      Driven settings (w.modifyMapping address fun m => { m with bytes := m.bytes.setByte (address - m.base) b })

-- Endings for which the pager is not to blame.
def Excused (settings : Settings) (m : Mailbox) : Outcome → Prop
  | .ok _ => ∃ i, m.asked i = some .shutdown
  | .error failure => ∃ i id template, m.asked i = some (.allocate id template) ∧
      Justified settings.low template (.failed failure)

structure Behaved (settings : Settings) (w : Worker) : Prop where
  fitting : w.mailbox.Fitting
  serving : w.Serving → ∃ n, Desk settings w n
  gone : ¬ w.Serving → w.pager.objects = [] ∧ w.pager.watched = []
  ended : ∀ outcome, w.ending? = some outcome → Excused settings w.mailbox outcome

theorem excused_asked (settings : Settings) (m next : Mailbox) (outcome : Outcome)
    (asked : ∀ i request, m.asked i = some request → next.asked i = some request) (excused : Excused settings m outcome) :
    Excused settings next outcome := by
  cases outcome with
  | ok _ =>
      obtain ⟨i, shutdown⟩ := excused
      exact ⟨i, asked i _ shutdown⟩
  | error failure =>
      obtain ⟨i, id, template, allocated, justified⟩ := excused
      exact ⟨i, id, template, asked i _ allocated, justified⟩

theorem not_serving_of_ending (w : Worker) (outcome : Outcome) (ended : w.ending? = some outcome) : ¬ w.Serving := by
  rw [ending?] at ended
  rw [Serving]
  cases station : w.station <;> simp_all

section

variable (host : Host) (settings : Settings) (w : Worker)

theorem behaved_started (start : Worker.start settings = .ok w) : Behaved settings w := by
  obtain ⟨p, started, rfl⟩ := start_eq settings w start
  have objects := objects_start settings p started
  have nothing : ∀ i : Nat, Mailbox.empty.asked i = none := fun _ => rfl
  refine ⟨fun i t reply there => ?_, fun _ => ⟨0, ?_⟩, fun stopped => absurd trivial stopped, fun outcome ended => ?_⟩
  · cases there
  · refine ⟨⟨ledger_start settings p started, settings_start settings p started⟩, aligned_start p settings started,
      ?_, ?_, ?_, ?_⟩
    · constructor <;> simp [nothing]
    · exact ⟨rfl, Nat.le_refl _, rfl, fun i t _ there => by cases there⟩
    · intro i id template grant there
      cases there
    · intro o member
      rw [objects] at member
      cases member
  · cases ended

theorem behaved_of_desk (n : Nat) (fitting : w.mailbox.Fitting) (serving : w.Serving) (desk : Desk settings w n) :
    Behaved settings w :=
  ⟨fitting, fun _ => ⟨n, desk⟩, fun stopped => absurd serving stopped,
    fun outcome ended => absurd serving (not_serving_of_ending w outcome ended)⟩

theorem behaved_of_ending (outcome : Outcome) (fitting : w.mailbox.Fitting) (objects : w.pager.objects = [])
    (watched : w.pager.watched = []) (ended : w.ending? = some outcome) (excused : Excused settings w.mailbox outcome) :
    Behaved settings w :=
  ⟨fitting, fun serving => absurd serving (not_serving_of_ending w outcome ended), fun _ => ⟨objects, watched⟩,
    fun other same => by
      cases ended.symm.trans same
      exact excused⟩

theorem behaved_sent (request : Request) (behaved : Behaved settings w) (admits : w.mailbox.Admits request) :
    Behaved settings (w.send request).2 := by
  have asked := asked_send w.mailbox request
  have kept : ∀ i r, w.mailbox.asked i = some r → (w.mailbox.send request).2.asked i = some r := by
    intro i r before
    rw [asked, if_neg (Nat.ne_of_lt (w.mailbox.asked_lt r i before)), before]
  refine ⟨fitting_sent w.mailbox request behaved.fitting, fun serving => ?_, behaved.gone,
    fun outcome ended => excused_asked settings _ _ outcome kept (behaved.ended outcome ended)⟩
  obtain ⟨n, desk⟩ := behaved.serving serving
  have line := line_sent w.mailbox request n desk.line
  have inside := desk.line.inside
  refine ⟨n, desk.keeps, desk.aligned, history_sent w.mailbox request desk.history admits, line,
    fun i id template grant there unfreed => ?_, fun o member => ?_⟩
  · have served : i < n := by
      by_contra later
      have queued := line.waiting i _ (Nat.le_of_not_lt later) there
      cases queued
    obtain ⟨progress, tickets⟩ := tickets_send w.mailbox request i
    rw [if_neg (by omega)] at tickets
    refine desk.granted i id template grant (tickets.symm.trans there) fun j earlier => ?_
    have before := asked j
    rw [if_neg (by omega)] at before
    exact before ▸ unfreed j earlier
  · obtain ⟨i, there⟩ := desk.listed o member
    exact ⟨i, tickets_send_old w.mailbox request i _ there⟩

theorem behaved_serving (orderly : host.Orderly) (releases : host.Releases) (behaved : Behaved settings w)
    (station : w.station = .serving) : Behaved settings (w.advance host) ∧
      (¬ (w.advance host).Serving → ∃ ticket mailbox, w.mailbox.next = some (ticket, .shutdown, mailbox)) := by
  obtain ⟨n, desk⟩ := behaved.serving (by simp only [Serving, station])
  simp only [advance, station]
  rcases next_line w.mailbox n desk.line with ⟨nothing, -⟩ | ⟨t, there, inside, taken⟩
  · simp only [nothing]
    refine ⟨behaved_of_desk settings _ n behaved.fitting trivial ?_, fun stopped => absurd trivial stopped⟩
    exact desk_lasts settings w n desk w.pager .waiting w.interrupts desk.keeps (lasts_of_objects w.pager w.pager rfl)
  · simp only [taken]
    by_cases stops : t.request = .shutdown
    · have settled := settled_set_progress w.mailbox n .dropped w.mailbox.queue.tail .held rfl
      have asked : w.mailbox.asked n = some .shutdown := by rw [Mailbox.asked, there, Option.map_some, stops]
      rw [stops]
      refine ⟨behaved_of_ending settings _ (.ok ()) ?_ rfl rfl rfl
        ⟨n, (asked_settled w.mailbox _ n .dropped settled n).trans asked⟩, fun _ => ⟨n, _, rfl⟩⟩
      exact fitting_moved w.mailbox _ n .dropped behaved.fitting settled.tickets
        fun _ _ _ impossible => (by cases impossible)
    · obtain ⟨reply, q, ⟨serves, fits⟩, served⟩ := serve_answers settings w n desk host orderly releases t
        ((({ w.mailbox with queue := w.mailbox.queue.tail }) : Mailbox).setProgress n .held) there stops
      have settled := settled_set_progress w.mailbox n (.answered reply) w.mailbox.queue.tail .held rfl
      have ready := desk_served settings w n desk host orderly t reply q _ w.station there serves settled
      have serving : Serving
          { pager := q
            mailbox := ((({ w.mailbox with queue := w.mailbox.queue.tail }) : Mailbox).setProgress n .held).answer n reply
            station := w.station, interrupts := w.interrupts } := by
        simp only [Serving, station]
      rw [← station, served]
      refine ⟨behaved_of_desk settings _ (n + 1) ?_ serving ready, fun stopped => absurd serving stopped⟩
      refine fitting_moved w.mailbox _ n (.answered reply) behaved.fitting settled.tickets fun u given uThere answered => ?_
      cases answered
      cases there.symm.trans uThere
      exact fits

theorem behaved_advanced (orderly : host.Orderly) (yields : host.Yields) (behaved : Behaved settings w) :
    Behaved settings (w.advance host) := by
  cases station : w.station with
  | waiting =>
      obtain ⟨n, desk⟩ := behaved.serving (by simp only [Serving, station])
      simp only [advance, station]
      by_cases rung : w.mailbox.bell.isRung = true
      · rw [if_pos rung]
        refine behaved_of_desk settings _ n behaved.fitting trivial ?_
        exact desk_lasts settings w n desk w.pager .woken 0 desk.keeps (lasts_of_objects w.pager w.pager rfl)
      · rw [if_neg rung, yields.waits]
        have serving : w.Serving := by simp only [Serving, station]
        refine behaved_of_desk settings _ n behaved.fitting serving ?_
        exact desk_lasts settings w n desk w.pager w.station 0 desk.keeps (lasts_of_objects w.pager w.pager rfl)
  | woken =>
      obtain ⟨n, desk⟩ := behaved.serving (by simp only [Serving, station])
      have history := desk.history
      have line := desk.line
      simp only [advance, station]
      refine behaved_of_desk settings _ n behaved.fitting trivial
        ⟨desk.keeps, desk.aligned, ?_, ?_, desk.granted, desk.listed⟩
      · exact ⟨history.allocations, history.ids, history.frees, history.resets, history.known⟩
      · exact ⟨line.isOpen, line.inside, line.queue, line.waiting⟩
  | serving => exact (behaved_serving host settings w orderly yields.releases behaved station).1
  | refusing outcome =>
      have ended : w.ending? = some outcome := by simp only [ending?, station]
      have gone := behaved.gone (not_serving_of_ending w outcome ended)
      have excused := behaved.ended outcome ended
      simp only [advance, station]
      cases taken : w.mailbox.next with
      | none => exact behaved_of_ending settings _ outcome behaved.fitting gone.1 gone.2 rfl excused
      | some front =>
          obtain ⟨ticket, request, mailbox⟩ := front
          obtain ⟨fitting, asked⟩ := fitting_refused w.mailbox mailbox ticket request behaved.fitting taken
          refine behaved_of_ending settings _ outcome fitting gone.1 gone.2 rfl ?_
          exact excused_asked settings _ _ outcome (fun i _ before => (asked i).trans before) excused
  | closing outcome =>
      have ended : w.ending? = some outcome := by simp only [ending?, station]
      have gone := behaved.gone (not_serving_of_ending w outcome ended)
      have fitting := fitting_close w.mailbox behaved.fitting
      have asked := asked_close w.mailbox
      simp only [advance, station]
      refine behaved_of_ending settings _ outcome fitting gone.1 gone.2 rfl ?_
      exact excused_asked settings _ _ outcome (fun i _ before => (asked i).trans before) (behaved.ended outcome ended)
  | closed outcome =>
      simp only [advance, station]
      exact behaved

theorem behaved_touched (yields : host.Yields) (address : Nat) (behaved : Behaved settings w)
    (reaches : w.Reaches address) (faults : w.Faults address) : Behaved settings (w.fault host address) := by
  by_cases serving : w.Serving
  · obtain ⟨n, desk⟩ := behaved.serving serving
    have ensures := fault_justified host yields settings w n address desk reaches faults
    cases run : (resolve host (address / Page.size * Page.size)).run w.pager with
    | ok _ q =>
        obtain ⟨keeps, lasts⟩ := ensures_result _ _ _ _ _ _ ensures run
        rw [fault_answered host w address q run]
        exact behaved_of_desk settings _ n behaved.fitting serving (desk_lasts settings w n desk q w.station 0 keeps lasts)
    | error halt q =>
        obtain ⟨o, member, justified⟩ := ensures_failure _ _ _ _ _ _ ensures run
        simp only [fault, run]
        cases halt with
        | failed failure =>
            obtain ⟨i, listed⟩ := asked_of_listed settings w n desk o member
            exact behaved_of_ending settings _ (.error failure) behaved.fitting rfl rfl rfl
              ⟨i, o.id, o.template, listed, justified⟩
        | arithmetic fault => cases justified
        | assertion text => cases justified
  · obtain ⟨m, -, -, watched⟩ := faults
    rw [(behaved.gone serving).2] at watched
    cases watched

theorem behaved_stored (address : Nat) (b : UInt8) (behaved : Behaved settings w) (reaches : w.Reaches address)
    (calm : ¬ w.Faults address) :
    Behaved settings (w.modifyMapping address fun m => { m with bytes := m.bytes.setByte (address - m.base) b }) := by
  by_cases serving : w.Serving
  · obtain ⟨n, desk⟩ := behaved.serving serving
    have ledger := desk.keeps.ledger
    obtain ⟨o, member, holds⟩ := object_of_reaches settings w n address desk reaches
    have found := (mapping_at_iff w address o.mapping ledger).mpr ⟨o, member, holds, rfl⟩
    have present : o.mapping.isPresent (address - o.mapping.base) = true := by
      by_contra missing
      exact calm ⟨o.mapping, found, Bool.eq_false_iff.mpr missing, ledger.watched o member⟩
    have keeps := store_keeps w address o.mapping b settings desk.keeps found present
    have changed := modify_mapping_eq w o address (fun m => { m with bytes := m.bytes.setByte (address - m.base) b }) ledger
      member holds
    have lasts : Lasts w.pager
        (w.modifyMapping address fun m => { m with bytes := m.bytes.setByte (address - m.base) b }).pager := by
      rw [changed]
      exact lasts_revised w.pager o _ (o.withByte (address - o.mapping.base) b) ledger.ids member
        ⟨rfl, rfl, rfl, rfl, rfl⟩ rfl
    exact behaved_of_desk settings _ n behaved.fitting serving (desk_lasts settings w n desk _ w.station _ keeps lasts)
  · have gone := behaved.gone serving
    refine ⟨behaved.fitting, fun again => absurd again serving, fun _ => ⟨?_, gone.2⟩, behaved.ended⟩
    simp only [modifyMapping, gone.1, List.map_nil]

theorem behaved_of_driven (driven : Driven settings w) : Behaved settings w := by
  induction driven with
  | started w start => exact behaved_started settings w start
  | sent w request before admits ih => exact behaved_sent settings w request ih admits
  | advanced host orderly yields w before ih => exact behaved_advanced host settings w orderly yields ih
  | touched host yields w address before reaches faults ih =>
      exact behaved_touched host settings w yields address ih reaches faults
  | stored w address b before reaches calm ih => exact behaved_stored settings w address b ih reaches calm

end

theorem asked_of_next (settings : Settings) (w : Worker) (n ticket : Nat) (request : Request) (mailbox : Mailbox)
    (desk : Desk settings w n) (taken : w.mailbox.next = some (ticket, request, mailbox)) :
    w.mailbox.asked n = some request := by
  rcases next_line w.mailbox n desk.line with ⟨nothing, -⟩ | ⟨t, there, -, front⟩
  · rw [nothing] at taken
    cases taken
  · cases front.symm.trans taken
    rw [asked, there, Option.map_some]

theorem chunk_affordable (p : Pager) (o : Managed) (k : Nat) (chunk : Chunk) (ledger : Ledger p) (member : o ∈ p.objects)
    (located : o.layout.chunkAt k = .ok (some chunk)) : chunk.fillLen ≤ p.settings.high := by
  have sound := ledger.sound o member
  rw [sound.layout, o.shape.layout_chunk_at] at located
  by_cases beyond : o.shape.bodyReserved ≤ k
  · rw [if_pos beyond] at located
    cases located
  · rw [if_neg beyond] at located
    cases located
    exact ledger.affordable o member _ (o.shape.chunk_of_offset_lt k (Nat.lt_of_not_le beyond))

-- A worker whose clients keep to their handles ends only by a shutdown that was asked for, by a filler that failed, or at
-- a chunk that is larger than the low mark.
theorem endings_of_driven (settings : Settings) (w : Worker) (driven : Driven settings w) :
    (∀ outcome, w.ending? = some outcome →
      (outcome = .ok () ∧ ∃ i, w.mailbox.asked i = some .shutdown) ∨
      ∃ failure, outcome = .error failure ∧ ∃ i id template, w.mailbox.asked i = some (.allocate id template) ∧
        Justified settings.low template (.failed failure)) ∧
    (∀ (i : Nat) (t : Ticket) (reply : Reply), w.mailbox.tickets[i]? = some t → t.progress = .answered reply →
      t.request.Fits reply) ∧
    (w.Serving → ∀ host : Host, host.Orderly → host.Yields →
      (∀ address, w.Reaches address → w.Faults address →
        Ensures (resolve host (address / Page.size * Page.size)) w.pager (fun _ _ => True)
          (fun halt _ => ∃ o ∈ w.pager.objects, Justified settings.low o.template halt)) ∧
      (∀ o ∈ w.pager.objects, ∀ k chunk, o.layout.chunkAt k = .ok (some chunk) → chunk.fillLen ≤ settings.high) ∧
      (∀ ticket mailbox, (∀ id template, w.mailbox.next = some (ticket, .allocate id template, mailbox) →
          Ensures (allocate host id template) w.pager (fun _ _ => True)
            (fun halt q => q = w.pager ∧ ((∃ chunk high, halt = .failed (.chunkExceedsBudget chunk high)) ∨
              ∃ operation cause, halt = .failed (.resource operation cause)))) ∧
        (∀ id, w.mailbox.next = some (ticket, .free id, mailbox) →
          Ensures (free id) w.pager (fun _ _ => True) (fun _ _ => False)) ∧
        ∀ id, w.mailbox.next = some (ticket, .reset id, mailbox) →
          Ensures (reset host id) w.pager (fun _ _ => True) (fun _ _ => False)) ∧
      (¬ (w.advance host).Serving → ∃ ticket mailbox, w.mailbox.next = some (ticket, .shutdown, mailbox))) := by
  have behaved := behaved_of_driven settings w driven
  refine ⟨fun outcome ended => ?_, behaved.fitting, fun serving host orderly yields => ?_⟩
  · have excused := behaved.ended outcome ended
    cases outcome with
    | ok _ => exact Or.inl ⟨rfl, excused⟩
    | error failure => exact Or.inr ⟨failure, rfl, excused⟩
  · obtain ⟨n, desk⟩ := behaved.serving serving
    have ledger := desk.keeps.ledger
    refine ⟨fun address reaches faults => ?_, fun o member k chunk located => ?_,
      fun ticket mailbox => ⟨fun id template taken => ?_, fun id taken => ?_, fun id taken => ?_⟩, fun stopped => ?_⟩
    · exact ensures_mono _ _ _ _ _ _ (fault_justified host yields settings w n address desk reaches faults)
        (fun _ _ _ => trivial) (fun _ _ justified => justified)
    · exact desk.keeps.settings ▸ chunk_affordable w.pager o k chunk ledger member located
    · have asked := asked_of_next settings w n ticket _ mailbox desk taken
      apply ensures_mono _ _ _ _ _ _ (allocate_served settings w n desk host orderly id template asked)
      · exact fun _ _ _ => trivial
      · intro halt q failed
        obtain ⟨rfl, failure, rfl, refusal, fits⟩ := failed
        refine ⟨rfl, ?_⟩
        cases failure with
        | emptyObject => exact fits.elim
        | chunkExceedsBudget chunk high => exact Or.inl ⟨chunk, high, rfl⟩
        | resource operation cause => exact Or.inr ⟨operation, cause, rfl⟩
        | _ => exact refusal.elim
    · have asked := asked_of_next settings w n ticket _ mailbox desk taken
      exact ensures_mono _ _ _ _ _ _ (free_served settings w n desk host id asked) (fun _ _ _ => trivial)
        (fun _ _ impossible => impossible)
    · have asked := asked_of_next settings w n ticket _ mailbox desk taken
      exact ensures_mono _ _ _ _ _ _ (reset_served settings w n desk host yields.releases id asked) (fun _ _ _ => trivial)
        (fun _ _ impossible => impossible)
    · cases station : w.station with
      | serving => exact (behaved_serving host settings w orderly yields.releases behaved station).2 stopped
      | waiting =>
          refine absurd ?_ stopped
          simp only [advance, station, yields.waits]
          split
          · trivial
          · exact serving
      | woken =>
          refine absurd ?_ stopped
          simp only [advance, station, Serving]
      | _ => simp only [Serving, station] at serving

end Worker

end DemandPaging

namespace DemandPaging.Worker

attribute [local instance] Platform.small

theorem driven_granted : Driven .threePages (granted 4) := by
  have orderly := Host.plain_orderly []
  have yields := Host.plain_yields []
  have admits : Mailbox.empty.Admits (.allocate ⟨1⟩ (.fourPages 4)) :=
    ⟨rfl, by decide, fun i other asked => by cases asked⟩
  exact .advanced _ orderly yields _ (.advanced _ orderly yields _ (.advanced _ orderly yields _
    (.sent _ _ (.started _ start_first) admits)))

theorem endings_of_first_shutdown : (granted 4).mailbox.Fitting ∧
    ((granted 4).makes (Host.plain []) [.send .shutdown, .advance]).ending? = some (.ok ()) ∧
    ∃ i, ((granted 4).makes (Host.plain []) [.send .shutdown, .advance]).mailbox.asked i = some .shutdown := by
  have stopped := Driven.advanced _ (Host.plain_orderly []) (Host.plain_yields []) _ (.sent _ .shutdown driven_granted trivial)
  have fine : ((granted 4).makes (Host.plain []) [.send .shutdown, .advance]).ending?.map Except.isOk = some true := by
    decide +kernel
  obtain ⟨outcome, ended, ok⟩ := Option.map_eq_some_iff.mp fine
  refine ⟨(endings_of_driven .threePages _ driven_granted).2.1, ?_⟩
  rcases (endings_of_driven .threePages _ stopped).1 outcome ended with ⟨rfl, asked⟩ | ⟨failure, rfl, -⟩
  · exact ⟨ended, asked⟩
  · cases ok

end DemandPaging.Worker
