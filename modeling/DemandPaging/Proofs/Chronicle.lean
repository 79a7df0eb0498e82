import DemandPaging.Proofs.Endings
import DemandPaging.Proofs.ExactEviction
import DemandPaging.Proofs.WorkerSteps

set_option autoImplicit false

namespace DemandPaging

variable [Platform]

inductive Deed where
  | served (request : Request)
  | faulted (host : Host) (pager : Pager) (address : Nat)

-- The template of an object, if the record, newest first, has its allocation.
def template? (past : List Deed) (id : ObjectId) : Option Template :=
  past.findSome? fun
    | .served (.allocate other template) => if other = id then some template else none
    | _ => none

namespace Pager

def Missing (p : Pager) (address : Nat) : Prop :=
  ∃ o ∈ p.objects, ∃ k, k < o.shape.bodyReserved ∧ address = o.mapping.base + (o.shape.headerPadded + k) ∧
    ¬ p.Resident o.id (k / o.shape.chunkLen)

-- What a pager goes through while it serves. Every allocation has a new number, and bytes are written to pages that exist.
inductive Story (settings : Settings) : List Deed → Pager → Prop where
  | started (p : Pager) (start : Pager.start settings = .ok p) : Story settings [] p
  | served (host : Host) (past : List Deed) (p q : Pager) (request : Request) (reply : Reply) (before : Story settings past p)
      (fresh : ∀ id template, request = .allocate id template → template? past id = none)
      (serves : Served host p request reply q) : Story settings (.served request :: past) q
  | faulted (host : Host) (past : List Deed) (p q : Pager) (address : Nat) (before : Story settings past p)
      (run : (resolve host address).run p = .ok () q) (ledger : Ledger q) (resolved : Resolved p address q) :
      Story settings (.faulted host p address :: past) q
  | stored (past : List Deed) (p : Pager) (o : Managed) (offset : Nat) (b : UInt8) (before : Story settings past p)
      (member : o ∈ p.objects) (present : o.mapping.isPresent offset = true) :
      Story settings past { p with objects := revised p.objects (o.withByte offset b) }

structure Told (settings : Settings) (past : List Deed) (p : Pager) : Prop extends Keeps settings p where
  known : ∀ o ∈ p.objects, template? past o.id = some o.template
  storeless : p.Storeless

theorem template_served (past : List Deed) (request : Request) (id : ObjectId) (template : Template)
    (fresh : ∀ other t, request = .allocate other t → template? past other = none)
    (known : template? past id = some template) : template? (.served request :: past) id = some template := by
  cases request with
  | allocate other t =>
      have apart : other ≠ id := by
        rintro rfl
        rw [fresh other t rfl] at known
        cases known
      simp only [template?, List.findSome?_cons, if_neg apart]
      exact known
  | _ => exact known

theorem template_allocated (past : List Deed) (id : ObjectId) (template : Template) :
    template? (.served (.allocate id template) :: past) id = some template := by
  simp only [template?, List.findSome?_cons, if_true]

theorem place_unique (p : Pager) (address : Nat) (catalogue : Catalogue p) (o x : Managed) (k j : Nat) (member : o ∈ p.objects)
    (xMember : x ∈ p.objects) (inside : k < o.shape.bodyReserved) (xInside : j < x.shape.bodyReserved)
    (place : address = o.mapping.base + (o.shape.headerPadded + k))
    (xPlace : address = x.mapping.base + (x.shape.headerPadded + j)) : o = x ∧ k = j := by
  have own : o = x := same_of_address p o x address catalogue member xMember
    (place ▸ o.holds_of_offset _ (catalogue.sound o member) (Nat.add_lt_add_left inside _))
    (xPlace ▸ x.holds_of_offset _ (catalogue.sound x xMember) (Nat.add_lt_add_left xInside _))
  subst own
  exact ⟨rfl, by omega⟩

theorem header_not_body (p : Pager) (address : Nat) (catalogue : Catalogue p) (o x : Managed) (j : Nat) (member : o ∈ p.objects)
    (low : o.mapping.base ≤ address) (high : address - o.mapping.base < o.shape.headerPadded) (xMember : x ∈ p.objects)
    (inside : j < x.shape.bodyReserved) (place : address = x.mapping.base + (x.shape.headerPadded + j)) : False := by
  have own : o = x := same_of_address p o x address catalogue member xMember
    (o.holds_of_header address (catalogue.sound o member) low high)
    (place ▸ x.holds_of_offset _ (catalogue.sound x xMember) (Nat.add_lt_add_left inside _))
  subst own
  omega

section

variable (p : Pager) (address : Nat) (ledger : Ledger p) (missing : p.Missing address)

include ledger missing

theorem missing_chunk (o : Managed) (k : Nat) (member : o ∈ p.objects) (inside : k < o.shape.bodyReserved)
    (place : address = o.mapping.base + (o.shape.headerPadded + k)) : ¬ p.Resident o.id (k / o.shape.chunkLen) := by
  obtain ⟨x, xMember, j, xInside, xPlace, absent⟩ := missing
  obtain ⟨rfl, rfl⟩ := place_unique p address ledger.toCatalogue x o j k xMember member xInside inside xPlace place
  exact absent

theorem missing_fits (o : Managed) (k : Nat) (member : o ∈ p.objects) (inside : k < o.shape.bodyReserved)
    (place : address = o.mapping.base + (o.shape.headerPadded + k)) :
    p.resident + (o.shape.piece (k / o.shape.chunkLen)).fillLen < Word.limit :=
  room_for_chunk p o _ ledger member (o.shape.chunk_of_offset_lt k inside)
    (missing_chunk p address ledger missing o k member inside place)

end

theorem justified_at (p : Pager) (address : Nat) (ledger : Ledger p) (o : Managed) (k : Nat) (member : o ∈ p.objects)
    (inside : k < o.shape.bodyReserved) (place : address = o.mapping.base + (o.shape.headerPadded + k))
    (fits : p.resident + (o.shape.piece (k / o.shape.chunkLen)).fillLen < Word.limit) (given : o.template.filler ≠ none)
    (host : Host) (yields : host.Yields) (halt : Halt) (q : Pager) (stops : FaultStops host p address halt q) :
    Justified p.settings.low o.template halt := by
  cases stops with
  | nowhere none =>
      exact absurd (place ▸ o.holds_of_offset _ (ledger.sound o member) (Nat.add_lt_add_left inside _)) (none o member)
  | unzeroed x xMember low high cause refused => cases (yields.zeros _).symm.trans refused
  | bringIn x j halt q xMember xInside xPlace stops =>
      obtain ⟨rfl, rfl⟩ := place_unique p address ledger.toCatalogue o x k j member xMember inside xInside place xPlace
      exact justified_of_stops host p o _ halt q (o.shape.chunk_of_offset_lt k inside) given fits yields stops

section

variable (settings : Settings) (past : List Deed) (p q : Pager)

theorem storeless_lasts (lasts : Lasts p q) (storeless : p.Storeless) : q.Storeless := by
  intro later laterMember fixed
  obtain ⟨o, member, becomes⟩ := lasts.back later laterMember
  have none := storeless o member (becomes.template ▸ fixed)
  have stores := o.stores_becomes later becomes
  rw [none] at stores
  exact Option.not_isSome_iff_eq_none.mp (Bool.eq_false_iff.mp stores)

theorem storeless_served (host : Host) (request : Request) (reply : Reply) (ids : (p.objects.map Managed.id).Nodup)
    (storeless : p.Storeless) (serves : Served host p request reply q) : q.Storeless := by
  cases serves with
  | allocated id template grant q allocated =>
      cases allocated with
      | intro base swap index placed sound listed affordable opens =>
          intro o member fixed
          rcases List.mem_cons.mp member with rfl | old
          · have given := opens.given
            have readOnly : template.readOnly = true := fixed
            rw [readOnly, Bool.true_or, Bool.not_true] at given
            exact Option.not_isSome_iff_eq_none.mp (Bool.eq_false_iff.mp given)
          · exact storeless o (List.mem_filter.mp old).1 fixed
  | freed x index member sound removed => exact fun o oMember => storeless o (List.mem_filter.mp oMember).1
  | emptied x member =>
      exact storeless_lasts p _ (lasts_revised p x (p.emptied x) (cleared x) ids member (cleared_becomes x) rfl) storeless
  | refused request failure => exact storeless

theorem known_lasts (lasts : Lasts p q) (known : ∀ o ∈ p.objects, template? past o.id = some o.template) :
    ∀ o ∈ q.objects, template? past o.id = some o.template := by
  intro later laterMember
  obtain ⟨o, member, becomes⟩ := lasts.back later laterMember
  rw [becomes.id, becomes.template]
  exact known o member

theorem stored_lasts (o : Managed) (offset : Nat) (b : UInt8) (ledger : Ledger p) (member : o ∈ p.objects) :
    Lasts p { p with objects := revised p.objects (o.withByte offset b) } :=
  lasts_revised p o _ (o.withByte offset b) ledger.ids member ⟨rfl, rfl, rfl, rfl, rfl⟩ rfl

end

theorem started_told (settings : Settings) (p : Pager) (start : Pager.start settings = .ok p) : Told settings [] p := by
  have objects := objects_start settings p start
  refine ⟨⟨ledger_start settings p start, settings_start settings p start⟩, fun o member => ?_, fun o member => ?_⟩
  all_goals
    rw [objects] at member
    cases member

section

variable (settings : Settings) (past : List Deed) (p q : Pager) (told : Told settings past p)

include told

theorem fresh_of_record (request : Request)
    (fresh : ∀ id template, request = .allocate id template → template? past id = none) :
    ∀ id template, request = .allocate id template → ∀ o ∈ p.objects, o.id ≠ id := by
  rintro id template rfl o member rfl
  have known := told.known o member
  rw [fresh o.id template rfl] at known
  cases known

theorem lasts_told (ledger : Ledger q) (same : q.settings = p.settings) (lasts : Lasts p q) : Told settings past q :=
  ⟨⟨ledger, same.trans told.settings⟩, known_lasts past p q lasts told.known, storeless_lasts p q lasts told.storeless⟩

theorem served_told (host : Host) (request : Request) (reply : Reply)
    (fresh : ∀ id template, request = .allocate id template → template? past id = none)
    (serves : Served host p request reply q) : Told settings (.served request :: past) q := by
  have unknown := fresh_of_record settings past p told request fresh
  have known : ∀ o ∈ p.objects, template? (.served request :: past) o.id = some o.template := fun o member =>
    template_served past request o.id o.template fresh (told.known o member)
  refine ⟨served_keeps p settings host q request reply told.toKeeps unknown serves, ?_, ?_⟩
  · cases serves with
    | allocated id template grant q allocated =>
        cases allocated with
        | intro base swap index placed sound listed affordable opens =>
            intro o member
            rcases List.mem_cons.mp member with rfl | old
            · exact template_allocated past id template
            · exact known o (List.mem_filter.mp old).1
    | freed x index member sound removed => exact fun o oMember => known o (List.mem_filter.mp oMember).1
    | emptied x member =>
        exact known_lasts _ p _ (lasts_revised p x (p.emptied x) (cleared x) told.ledger.ids member (cleared_becomes x) rfl)
          known
    | refused request failure => exact known
  · exact storeless_served p q host request reply told.ledger.ids told.storeless serves

end

theorem told_of_story (settings : Settings) (past : List Deed) (p : Pager) (story : Story settings past p) :
    Told settings past p := by
  induction story with
  | started p start => exact started_told settings p start
  | served host past p q request reply before fresh serves ih =>
      exact served_told settings past p q ih host request reply fresh serves
  | faulted host past p q address before run ledger resolved ih =>
      have told := lasts_told settings past p q ih ledger (settings_resolved p q address resolved)
        (resolved_lasts p address q ih.ledger resolved)
      exact ⟨told.toKeeps, told.known, told.storeless⟩
  | stored past p o offset b before member present ih =>
      exact lasts_told settings past p _ ih (ledger_stored p o offset b ih.ledger member present) rfl
        (stored_lasts p o offset b ih.ledger member)

end Pager

namespace Worker

open Pager

def taking? (w : Worker) : Option Request :=
  match w.station with
  | .serving => w.mailbox.next.map fun front => front.2.1
  | _ => none

instance (w : Worker) (address : Nat) : Decidable (w.Faults address) :=
  match found : w.mappingAt? address with
  | none => isFalse fun given => by
      obtain ⟨m, there, -⟩ := given
      rw [found] at there
      cases there
  | some m =>
    decidable_of_iff (m.isPresent (address - m.base) = false ∧ m.span ∈ w.pager.watched) (by
      simp only [Faults, found, Option.some.injEq, exists_eq_left'])

-- Runs of a worker, with its record. Clients send requests and write to pages that exist, and the system reports faults, in
-- any order, while the worker takes its steps. An allocation comes under a number that none before it had, and memory that is
-- given back is taken.
inductive Lived (settings : Settings) : List Deed → Worker → Prop where
  | started (w : Worker) (start : Worker.start settings = .ok w) : Lived settings [] w
  | sent (past : List Deed) (w : Worker) (request : Request) (before : Lived settings past w) :
      Lived settings past (w.send request).2
  | advanced (host : Host) (releases : host.Releases) (past : List Deed) (w : Worker) (before : Lived settings past w)
      (fresh : ∀ ticket id template mailbox, w.mailbox.next = some (ticket, .allocate id template, mailbox) →
        template? past id = none) :
      Lived settings ((w.taking?.map Deed.served).toList ++ past) (w.advance host)
  | faulted (host : Host) (releases : host.Releases) (past : List Deed) (w : Worker) (address : Nat)
      (before : Lived settings past w) (serving : w.Serving) :
      Lived settings (.faulted host w.pager (address / Page.size * Page.size) :: past) (w.fault host address)
  | stored (past : List Deed) (w : Worker) (address : Nat) (m : Mapping) (b : UInt8) (before : Lived settings past w)
      (found : w.mappingAt? address = some m) (present : m.isPresent (address - m.base) = true) :
      Lived settings past (w.modifyMapping address fun m => { m with bytes := m.bytes.setByte (address - m.base) b })

-- What those who wait for a worker are told that stopped this way.
def told : Halt → Failure
  | .failed failure => failure
  | .arithmetic _ | .assertion _ => .workerCrashed

inductive Ended (settings : Settings) : List Deed → List Event → Outcome → Prop where
  | waiting (past : List Deed) (p : Pager) (cause : SystemError) (story : Story settings past p) :
      Ended settings past p.journal (.error (.resource "epoll_wait" cause))
  | request (past : List Deed) (p : Pager) (request : Request) (outcome : Outcome) (story : Story settings past p)
      (fresh : ∀ id template, request = .allocate id template → template? past id = none)
      (spared : ∀ failure, outcome = .error failure → failure.SparesBudget) :
      Ended settings (.served request :: past) p.journal outcome
  | fault (host : Host) (releases : host.Releases) (past : List Deed) (p q : Pager) (address : Nat) (halt : Halt)
      (story : Story settings past p) (stops : FaultStops host p address halt q) :
      Ended settings (.faulted host p address :: past) q.journal (.error (told halt))

inductive Stands (settings : Settings) (past : List Deed) (w : Worker) : Prop where
  | serving (serving : w.Serving) (story : Story settings past w.pager) : Stands settings past w
  | ended (outcome : Outcome) (ending : w.ending? = some outcome) (objects : w.pager.objects = [])
      (watched : w.pager.watched = []) (ended : Ended settings past w.pager.journal outcome) : Stands settings past w

theorem missing_of_faults (w : Worker) (address : Nat) (ledger : Ledger w.pager) (faults : w.Faults address) :
    w.pager.Missing address := by
  obtain ⟨m, found, missing, -⟩ := faults
  obtain ⟨o, member, holds, rfl⟩ := (mapping_at_iff w address m ledger).mp found
  have sound := ledger.sound o member
  have total : address < o.mapping.base + o.shape.size := sound.len ▸ holds.2
  rw [Shape.size] at total
  have low : o.mapping.base ≤ address := holds.1
  have behind : ¬ address - o.mapping.base < o.shape.headerPadded := by
    intro header
    have present : o.mapping.isPresent (address - o.mapping.base) = true := sound.header _ (o.shape.header_page _ header)
    rw [missing] at present
    cases present
  obtain ⟨k, place⟩ : ∃ k, address = o.mapping.base + (o.shape.headerPadded + k) :=
    ⟨address - o.mapping.base - o.shape.headerPadded, by omega⟩
  have inside : k < o.shape.bodyReserved := by omega
  refine ⟨o, member, k, inside, place, ?_⟩
  have offset : address - o.mapping.base = o.shape.headerPadded + k := by omega
  rw [← ledger.present o member k inside, Managed.hasBody, ← offset, missing]
  exact Bool.false_ne_true

section

variable (settings : Settings) (past : List Deed)

theorem conclude_stands (host : Host) (w : Worker) (ticket : Nat) (request : Request) (x : M Reply) (serving : w.Serving)
    (story : Story settings past w.pager)
    (fresh : ∀ id template, request = .allocate id template → template? past id = none)
    (ensures : Ensures x w.pager (fun reply q => Served host w.pager request reply q)
      (fun halt q => q = w.pager ∧ ∃ f, halt = .failed f ∧ f.SparesBudget)) :
    Stands settings (.served request :: past) (w.conclude ticket (x.run w.pager)) := by
  cases run : x.run w.pager with
  | ok reply q =>
      have serves := ensures_result _ _ _ _ _ _ ensures run
      exact .serving serving (.served host past w.pager q request reply story fresh serves)
  | error halt q =>
      obtain ⟨rfl, f, rfl, other⟩ := ensures_failure _ _ _ _ _ _ ensures run
      simp only [conclude]
      by_cases ends : endsWorker f = true
      · rw [if_pos ends]
        exact .ended (.error f) rfl rfl rfl (.request past w.pager request (.error f) story fresh
          fun failure same => Except.error.inj same ▸ other)
      · rw [if_neg ends]
        exact .serving serving (.served host past w.pager w.pager request (.failed f) story fresh (.refused request f))

theorem serve_stands (host : Host) (releases : host.Releases) (w : Worker) (ticket : Nat) (request : Request)
    (serving : w.Serving)
    (story : Story settings past w.pager)
    (fresh : ∀ id template, request = .allocate id template → template? past id = none) :
    Stands settings (.served request :: past) (w.serve host ticket request) := by
  have ledger := (told_of_story settings past w.pager story).ledger
  cases request with
  | allocate id template =>
      apply conclude_stands settings past host w ticket _ _ serving story fresh
      rw [ensures_bind]
      exact allocate_spares w.pager host id template ledger.index
  | free id =>
      apply conclude_stands settings past host w ticket _ _ serving story fresh
      rw [ensures_bind]
      exact free_spares w.pager host id ledger
  | reset id =>
      apply conclude_stands settings past host w ticket _ _ serving story fresh
      rw [ensures_bind]
      exact reset_spares w.pager host releases id ledger
  | shutdown =>
      exact .ended (.ok ()) rfl rfl rfl (.request past w.pager .shutdown (.ok ()) story fresh
        fun failure impossible => by cases impossible)

theorem advance_stands (host : Host) (releases : host.Releases) (w : Worker) (stands : Stands settings past w)
    (fresh : ∀ ticket id template mailbox, w.mailbox.next = some (ticket, .allocate id template, mailbox) →
      template? past id = none) : Stands settings ((w.taking?.map Deed.served).toList ++ past) (w.advance host) := by
  obtain ⟨pager, mailbox, station, interrupts⟩ := w
  cases stands with
  | serving serving story =>
      cases station with
      | waiting =>
          simp only [advance, taking?, Option.map_none, Option.toList_none, List.nil_append]
          split
          · exact .serving trivial story
          · cases host.wait pager.settings.waitMillis with
            | timedOut => exact .serving trivial story
            | interrupted =>
                simp only [idle]
                split
                · exact .ended _ rfl rfl rfl (.waiting past pager _ story)
                · exact .serving trivial story
            | failed cause => exact .ended _ rfl rfl rfl (.waiting past pager cause story)
      | woken => exact .serving trivial story
      | serving =>
          cases taken : mailbox.next with
          | none =>
              simp only [advance, taking?, taken, Option.map_none, Option.toList_none, List.nil_append]
              exact .serving trivial story
          | some front =>
              obtain ⟨ticket, request, rest⟩ := front
              simp only [advance, taking?, taken, Option.map_some, Option.toList_some, List.singleton_append]
              apply serve_stands settings past host releases ⟨pager, rest, .serving, interrupts⟩ ticket request trivial story
              rintro id template rfl
              exact fresh ticket id template rest taken
      | _ => exact serving.elim
  | ended outcome ending objects watched ended =>
      cases station with
      | refusing =>
          simp only [advance, taking?, Option.map_none, Option.toList_none, List.nil_append]
          cases mailbox.next <;> exact .ended outcome ending objects watched ended
      | closing => exact .ended outcome ending objects watched ended
      | closed => exact .ended outcome ending objects watched ended
      | _ => cases ending

theorem fault_stands (host : Host) (releases : host.Releases) (w : Worker) (address : Nat) (stands : Stands settings past w)
    (serving : w.Serving) :
    Stands settings (.faulted host w.pager (address / Page.size * Page.size) :: past) (w.fault host address) := by
  cases stands with
  | serving serving story =>
      have ledger := (told_of_story settings past w.pager story).ledger
      have ensures := resolve_ensures host w.pager (address / Page.size * Page.size) ledger
      cases run : (resolve host (address / Page.size * Page.size)).run w.pager with
      | ok _ q =>
          obtain ⟨after, resolved⟩ := ensures_result _ _ _ _ _ _ ensures run
          rw [fault_answered host w address q run]
          exact .serving serving (.faulted host past w.pager q _ story run after resolved)
      | error halt q =>
          have stops := ensures_failure _ _ _ _ _ _ ensures run
          have ended : Ended settings (.faulted host w.pager (address / Page.size * Page.size) :: past) q.journal
              (.error (told halt)) := .fault host releases past w.pager q _ halt story stops
          simp only [fault, run]
          cases halt <;> exact .ended _ rfl rfl rfl ended
  | ended outcome ending => exact absurd serving (not_serving_of_ending w outcome ending)

theorem stored_stands (w : Worker) (address : Nat) (m : Mapping) (b : UInt8) (stands : Stands settings past w)
    (found : w.mappingAt? address = some m) (present : m.isPresent (address - m.base) = true) :
    Stands settings past (w.modifyMapping address fun m => { m with bytes := m.bytes.setByte (address - m.base) b }) := by
  cases stands with
  | serving serving story =>
      have ledger := (told_of_story settings past w.pager story).ledger
      obtain ⟨o, member, holds, rfl⟩ := (mapping_at_iff w address m ledger).mp found
      rw [modify_mapping_eq w o address _ ledger member holds]
      exact .serving serving (.stored past w.pager o (address - o.mapping.base) b story member present)
  | ended outcome ending objects watched ended =>
      refine .ended outcome ending ?_ watched ended
      simp only [modifyMapping, objects, List.map_nil]

end

theorem stands_of_lived (settings : Settings) (past : List Deed) (w : Worker) (lived : Lived settings past w) :
    Stands settings past w := by
  induction lived with
  | started w start =>
      obtain ⟨p, started, rfl⟩ := start_eq settings w start
      exact .serving trivial (.started p started)
  | sent past w request before ih =>
      cases ih with
      | serving serving story => exact .serving serving story
      | ended outcome ending objects watched ended => exact .ended outcome ending objects watched ended
  | advanced host releases past w before fresh ih => exact advance_stands settings past host releases w ih fresh
  | faulted host releases past w address before serving ih =>
      exact fault_stands settings past host releases w address ih serving
  | stored past w address m b before found present ih => exact stored_stands settings past w address m b ih found present

theorem story_of_lived (settings : Settings) (past : List Deed) (w : Worker) (lived : Lived settings past w)
    (serving : w.Serving) : Story settings past w.pager := by
  cases stands_of_lived settings past w lived with
  | serving _ story => exact story
  | ended outcome ending objects watched ended => exact absurd serving (not_serving_of_ending w outcome ending)

theorem reachable_of_lived (settings : Settings) (past : List Deed) (w : Worker) (lived : Lived settings past w) :
    Reachable settings w := by
  induction lived with
  | started w start => exact .started w start
  | sent past w request before ih => exact .sent w request ih
  | advanced host releases past w before fresh ih =>
      refine .advanced host releases w ih fun ticket id template mailbox taken o member same => ?_
      cases stands_of_lived settings past w before with
      | serving serving story =>
          have known := (told_of_story settings past w.pager story).known o member
          rw [same, fresh ticket id template mailbox taken] at known
          cases known
      | ended outcome ending objects watched ended =>
          rw [objects] at member
          cases member
  | faulted host releases past w address before serving ih => exact .faulted host w address ih
  | stored past w address m b before found present ih => exact .stored w address m b ih found present

theorem resolved_of_serving (host : Host) (w : Worker) (address : Nat) (ledger : Ledger w.pager)
    (serving : (w.fault host address).Serving) :
    ∃ q, (resolve host (address / Page.size * Page.size)).run w.pager = .ok () q ∧ Ledger q ∧
      Resolved w.pager (address / Page.size * Page.size) q := by
  have ensures := resolve_ensures host w.pager (address / Page.size * Page.size) ledger
  cases run : (resolve host (address / Page.size * Page.size)).run w.pager with
  | ok _ q => exact ⟨q, rfl, ensures_result _ _ _ _ _ _ ensures run⟩
  | error halt q => exact absurd serving (fault_ended host w address halt q run)

theorem storeless_of_reachable (settings : Settings) (w : Worker) (reachable : Reachable settings w) (serving : w.Serving) :
    w.pager.Storeless := by
  induction reachable with
  | started w start =>
      obtain ⟨p, started, rfl⟩ := start_eq settings w start
      exact (started_told settings p started).storeless
  | sent w request before ih => exact ih serving
  | advanced host releases w before fresh ih =>
      have ledger := fun serving => (keeps_of_reachable settings w before serving).ledger
      obtain ⟨earlier, same | ⟨ticket, request, mailbox, reply, taken, served⟩⟩ :=
        advance_served host releases w ledger serving
      · exact same ▸ ih earlier
      · exact storeless_served w.pager _ host request reply (ledger earlier).ids (ih earlier) served
  | faulted host w address before ih =>
      have earlier := fault_serving host w address serving
      have ledger := (keeps_of_reachable settings w before earlier).ledger
      obtain ⟨q, run, -, resolved⟩ := resolved_of_serving host w address ledger serving
      rw [fault_answered host w address q run]
      exact storeless_lasts w.pager q (resolved_lasts w.pager _ q ledger resolved) (ih earlier)
  | stored w address m b before found present ih =>
      have ledger := (keeps_of_reachable settings w before serving).ledger
      obtain ⟨o, member, holds, rfl⟩ := (mapping_at_iff w address m ledger).mp found
      rw [modify_mapping_eq w o address _ ledger member holds]
      exact storeless_lasts w.pager _ (stored_lasts w.pager o (address - o.mapping.base) b ledger member) (ih serving)

theorem fault_serves (host : Host) (yields : host.Yields) (w : Worker) (address : Nat) (serving : w.Serving)
    (ledger : Ledger w.pager) (o : Managed) (k : Nat) (member : o ∈ w.pager.objects) (inside : k < o.shape.bodyReserved)
    (place : address / Page.size * Page.size = o.mapping.base + (o.shape.headerPadded + k))
    (fits : w.pager.resident + (o.shape.piece (k / o.shape.chunkLen)).fillLen < Word.limit)
    (given : o.template.filler ≠ none) (able : ∀ halt, ¬ Justified w.pager.settings.low o.template halt) :
    (w.fault host address).Serving := by
  have ensures := resolve_ensures host w.pager (address / Page.size * Page.size) ledger
  cases run : (resolve host (address / Page.size * Page.size)).run w.pager with
  | ok _ q =>
      rw [fault_answered host w address q run]
      exact serving
  | error halt q =>
      have stops := ensures_failure _ _ _ _ _ _ ensures run
      exact absurd (justified_at w.pager _ ledger o k member inside place fits given host yields halt q stops) (able halt)

def tells (host : Host) (w : Worker) : Move → List Deed
  | .advance => (w.taking?.map Deed.served).toList
  | .fault address => [.faulted host w.pager (address / Page.size * Page.size)]
  | _ => []

def recounts (host : Host) : List Deed → Worker → List Move → List Deed
  | past, _, [] => past
  | past, w, move :: moves => recounts host (w.tells host move ++ past) (w.make host move) moves

def repeats (past : List Deed) (w : Worker) : Move → Bool
  | .advance =>
    match w.mailbox.next with
    | some (_, .allocate id _, _) => (template? past id).isSome
    | _ => false
  | _ => false

def repeatsAny (host : Host) : List Deed → Worker → List Move → Bool
  | _, _, [] => false
  | past, w, move :: moves => w.repeats past move || repeatsAny host (w.tells host move ++ past) (w.make host move) moves

theorem lived_of_moves (settings : Settings) (host : Host) (releases : host.Releases) (moves : List Move) (past : List Deed)
    (w : Worker) (lived : Lived settings past w) (permitted : w.permitsAll host moves = true)
    (fresh : repeatsAny host past w moves = false) : Lived settings (recounts host past w moves) (w.makes host moves) := by
  induction moves generalizing past w with
  | nil => exact lived
  | cons move moves ih =>
      rw [permitsAll, Bool.and_eq_true] at permitted
      rw [repeatsAny, Bool.or_eq_false_iff] at fresh
      refine ih _ _ ?_ permitted.2 fresh.2
      cases move with
      | send request => exact .sent past w request lived
      | advance =>
          refine .advanced host releases past w lived fun ticket id template mailbox taken => ?_
          have new := fresh.1
          rw [repeats, taken] at new
          exact Option.not_isSome_iff_eq_none.mp (Bool.eq_false_iff.mp new)
      | fault address => exact .faulted host releases past w address lived (of_decide_eq_true permitted.1)
      | store address b =>
          obtain ⟨m, found, present⟩ := mapping_of_permits w address b permitted.1
          exact .stored past w address m b lived found present

end Worker

end DemandPaging

namespace DemandPaging.Worker

attribute [local instance] Platform.small

theorem lived_pressed : ∃ past, Lived .threePages past (pressed 4) := by
  have releases := (Host.plain_yields []).releases
  have before := lived_of_moves _ _ releases (granting 4) [] _ (.started _ start_first) (by decide +kernel) (by decide +kernel)
  exact ⟨_, lived_of_moves _ _ releases pressing _ _ before (by decide +kernel) (by decide +kernel)⟩

end DemandPaging.Worker
