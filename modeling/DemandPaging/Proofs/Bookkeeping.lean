import DemandPaging.Proofs.BringingIn
import DemandPaging.Proofs.Lifetimes
import DemandPaging.Worker

set_option autoImplicit false

namespace DemandPaging

variable [Platform]

def Managed.withByte (o : Managed) (offset : Nat) (b : UInt8) : Managed :=
  { o with mapping := { o.mapping with bytes := o.mapping.bytes.setByte offset b } }

-- The failure has nothing to do with the low mark.
def Failure.SparesBudget (f : Failure) : Prop := ∀ needed resident low, f ≠ .budgetExhausted needed resident low

namespace Pager

structure Keeps (settings : Settings) (p : Pager) : Prop where
  ledger : Ledger p
  settings : p.settings = settings

theorem settings_resolved (p q : Pager) (address : Nat) (resolved : Resolved p address q) : q.settings = p.settings := by
  cases resolved with
  | header => rfl
  | body o now k calls bytes roomy supplied q member place inside room becomes nowMember sourced there installed =>
      have first := (turns_frame _ roomy (turns_of_room p.noticed roomy _ room)).1
      have second : supplied.settings = roomy.settings := by cases sourced <;> rfl
      have third : q.settings = supplied.settings := by cases installed <;> rfl
      exact third.trans (second.trans first)

-- What serving a request makes of the pager, and the reply. A request that fails leaves everything as it was.
inductive Served (host : Host) (p : Pager) : Request → Reply → Pager → Prop where
  | allocated (id : ObjectId) (template : Template) (grant : Grant) (q : Pager)
      (allocated : Allocated p host id template grant q) : Served host p (.allocate id template) (.granted grant) q
  | freed (o : Managed) (index : AddressMap ObjectId) (member : o ∈ p.objects) (sound : index.Sound)
      (removed : p.index.toList.Perm (o.entry :: index.toList)) : Served host p (.free o.id) .done (p.freed o index)
  | emptied (o : Managed) (member : o ∈ p.objects) : Served host p (.reset o.id) .done (p.emptied o)
  | refused (request : Request) (failure : Failure) : Served host p request (.failed failure) p

def AssertionFree {α : Type} (x : M α) (p : Pager) : Prop := ∀ text q, x.run p ≠ .error (.assertion text) q

theorem assertion_free_of_ensures {α : Type} (x : M α) (p : Pager) (ok : α → Pager → Prop) (stopped : Halt → Pager → Prop)
    (ensures : Ensures x p ok stopped) (other : ∀ text q, ¬ stopped (.assertion text) q) : AssertionFree x p := by
  intro text q run
  exact other text q (ensures_failure _ _ _ _ _ _ ensures run)

section

variable (p : Pager) (settings : Settings)

theorem allocate_spares (host : Host) (id : ObjectId) (template : Template) (sound : p.index.Sound) :
    Ensures (allocate host id template) p (fun grant q => Served host p (.allocate id template) (.granted grant) q)
      (fun halt q => q = p ∧ ∃ f, halt = .failed f ∧ f.SparesBudget) := by
  apply ensures_mono _ _ _ _ _ _ (allocate_ensures p host id template sound)
  · exact fun grant q allocated => .allocated id template grant q allocated
  · intro halt q failed
    obtain ⟨rfl, ⟨f, rfl, refusal⟩ | ⟨base, why, rfl, -⟩⟩ := failed
    · refine ⟨rfl, f, rfl, ?_⟩
      rintro needed resident low rfl
      exact refusal
    · exact ⟨rfl, _, rfl, fun _ _ _ impossible => by cases impossible⟩

theorem free_spares (host : Host) (id : ObjectId) (ledger : Ledger p) :
    Ensures (free id) p (fun _ q => Served host p (.free id) .done q)
      (fun halt q => q = p ∧ ∃ f, halt = .failed f ∧ f.SparesBudget) := by
  cases found : p.object? id with
  | none =>
      apply ensures_mono _ _ _ _ _ _ (free_unknown_ensures p id found)
      · exact fun _ _ impossible => impossible.elim
      · exact fun halt q refused => ⟨refused.1, _, refused.2, fun _ _ _ impossible => by cases impossible⟩
  | some o =>
      obtain ⟨member, rfl⟩ := (object_some_iff p o id ledger.ids).mp found
      apply ensures_mono _ _ _ _ _ _ (free_ensures p o ledger member)
      · intro _ _ done
        obtain ⟨index, sound, removed, rfl⟩ := done
        exact .freed o index member sound removed
      · exact fun _ _ impossible => impossible.elim

theorem reset_spares (host : Host) (releases : host.Releases) (id : ObjectId) (ledger : Ledger p) :
    Ensures (reset host id) p (fun _ q => Served host p (.reset id) .done q)
      (fun halt q => q = p ∧ ∃ f, halt = .failed f ∧ f.SparesBudget) := by
  cases found : p.object? id with
  | none =>
      apply ensures_mono _ _ _ _ _ _ (reset_unknown_ensures p host id found)
      · exact fun _ _ impossible => impossible.elim
      · exact fun halt q refused => ⟨refused.1, _, refused.2, fun _ _ _ impossible => by cases impossible⟩
  | some o =>
      obtain ⟨member, rfl⟩ := (object_some_iff p o id ledger.ids).mp found
      apply ensures_mono _ _ _ _ _ _ (reset_ensures p o host ledger member)
      · intro _ _ same
        subst same
        exact .emptied o member
      · exact fun _ _ failed => absurd releases failed.1

theorem serves_of_spares {α : Type} (x : M α) (ok : α → Pager → Prop)
    (spares : Ensures x p ok (fun halt q => q = p ∧ ∃ f, halt = .failed f ∧ f.SparesBudget)) :
    Ensures x p ok (fun halt q => q = p ∧ ∃ f, halt = .failed f) := by
  apply ensures_mono _ _ _ _ _ _ spares
  · exact fun _ _ done => done
  · intro halt q failed
    obtain ⟨same, f, failure, -⟩ := failed
    exact ⟨same, f, failure⟩

theorem allocate_serves (host : Host) (id : ObjectId) (template : Template) (sound : p.index.Sound) :
    Ensures (allocate host id template) p (fun grant q => Served host p (.allocate id template) (.granted grant) q)
      (fun halt q => q = p ∧ ∃ f, halt = .failed f) :=
  serves_of_spares p _ _ (allocate_spares p host id template sound)

theorem free_serves (host : Host) (id : ObjectId) (ledger : Ledger p) :
    Ensures (free id) p (fun _ q => Served host p (.free id) .done q) (fun halt q => q = p ∧ ∃ f, halt = .failed f) :=
  serves_of_spares p _ _ (free_spares p host id ledger)

theorem reset_serves (host : Host) (releases : host.Releases) (id : ObjectId) (ledger : Ledger p) :
    Ensures (reset host id) p (fun _ q => Served host p (.reset id) .done q)
      (fun halt q => q = p ∧ ∃ f, halt = .failed f) :=
  serves_of_spares p _ _ (reset_spares p host releases id ledger)

theorem reset_fails_softly (host : Host) (id : ObjectId) (ledger : Ledger p) :
    Ensures (reset host id) p (fun _ _ => True) (fun halt _ => ∃ f, halt = .failed f) := by
  cases found : p.object? id with
  | none =>
      apply ensures_mono _ _ _ _ _ _ (reset_unknown_ensures p host id found) (fun _ _ _ => trivial)
      exact fun halt q refused => ⟨_, refused.2⟩
  | some o =>
      obtain ⟨member, rfl⟩ := (object_some_iff p o id ledger.ids).mp found
      apply ensures_mono _ _ _ _ _ _ (reset_ensures p o host ledger member) (fun _ _ _ => trivial)
      rintro halt q ⟨-, ⟨cause, rfl⟩, -⟩
      exact ⟨_, rfl⟩

theorem served_keeps (host : Host) (q : Pager) (request : Request) (reply : Reply) (keeps : Keeps settings p)
    (fresh : ∀ id template, request = .allocate id template → ∀ o ∈ p.objects, o.id ≠ id)
    (served : Served host p request reply q) : Keeps settings q := by
  have ledger := keeps.ledger
  cases served with
  | allocated id template grant q allocated =>
      refine ⟨ledger_allocated p host id template grant q ledger (fresh id template rfl) allocated, ?_⟩
      cases allocated
      exact keeps.settings
  | freed o index member sound removed => exact ⟨ledger_freed p o index ledger member sound removed, keeps.settings⟩
  | emptied o member => exact ⟨ledger_emptied p o ledger member, keeps.settings⟩
  | refused => exact keeps

theorem resolve_keeps (host : Host) (address : Nat) (keeps : Keeps settings p) :
    Ensures (resolve host address) p (fun _ q => Keeps settings q) (fun halt _ => ∀ text, halt ≠ .assertion text) := by
  apply ensures_mono _ _ _ _ _ _ (resolve_ensures host p address keeps.ledger)
  · exact fun _ q done => ⟨done.1, (settings_resolved p q address done.2).trans keeps.settings⟩
  · exact fun halt q stops text => stops_without_assertion host p address halt q stops text

end

theorem ledger_stored (p : Pager) (o : Managed) (offset : Nat) (b : UInt8) (ledger : Ledger p) (member : o ∈ p.objects)
    (present : o.mapping.isPresent offset = true) :
    Ledger { p with objects := revised p.objects (o.withByte offset b) } := by
  have sound := ledger.sound o member
  have stays : ∀ page, (o.mapping.bytes.setByte offset b).isPresent page = o.mapping.bytes.isPresent page := by
    intro page
    rw [SparseBytes.present_setByte]
    by_cases same : page = offset / Page.size
    · rw [same]
      simpa [Mapping.isPresent] using present
    · simp [same]
  refine ledger_revise p o _ (o.withByte offset b) ledger member ⟨rfl, rfl, rfl, rfl, rfl⟩ ?_ ?_ rfl rfl
    ⟨rfl, rfl, rfl, rfl⟩ ⟨rfl, rfl, rfl⟩
  · refine ⟨sound.layout, sound.len, sound.own, fun page header => ?_, sound.store, sound.writable⟩
    exact (stays page).trans (sound.header page header)
  · exact fun k _ => stays _

end Pager

namespace Worker

open Pager

def Serving (w : Worker) : Prop :=
  match w.station with
  | .waiting | .woken | .serving => True
  | _ => False

instance : DecidablePred Serving := fun w =>
  match station : w.station with
  | .waiting | .woken | .serving => isTrue (by simp only [Serving, station])
  | .refusing _ | .closing _ | .closed _ => isFalse (by simp only [Serving, station, not_false_eq_true])

theorem conclude_serving (w : Worker) (ticket : Nat) (x : M Reply) (good : Reply → Pager → Prop)
    (ensures : Ensures x w.pager good (fun halt q => q = w.pager ∧ ∃ f, halt = .failed f))
    (serving : (w.conclude ticket (x.run w.pager)).Serving) :
    ∃ reply q, (good reply q ∨ ∃ f, reply = .failed f ∧ q = w.pager) ∧
      w.conclude ticket (x.run w.pager) = { w with pager := q, mailbox := w.mailbox.answer ticket reply } := by
  cases run : x.run w.pager with
  | ok reply q => exact ⟨reply, q, Or.inl (ensures_result _ _ _ _ _ _ ensures run), rfl⟩
  | error halt q =>
      obtain ⟨rfl, f, rfl⟩ := ensures_failure _ _ _ _ _ _ ensures run
      rw [run] at serving
      simp only [conclude] at serving ⊢
      by_cases ends : endsWorker f = true
      · rw [if_pos ends] at serving
        exact serving.elim
      · rw [if_neg ends]
        exact ⟨.failed f, w.pager, Or.inr ⟨f, rfl, rfl⟩, rfl⟩

theorem serve_served (host : Host) (releases : host.Releases) (w : Worker) (ticket : Nat) (request : Request)
    (ledger : Ledger w.pager)
    (serving : (w.serve host ticket request).Serving) :
    ∃ reply q, Served host w.pager request reply q ∧
      w.serve host ticket request = { w with pager := q, mailbox := w.mailbox.answer ticket reply } := by
  have whole : ∀ x : M Reply, Ensures x w.pager (fun reply q => Served host w.pager request reply q)
      (fun halt q => q = w.pager ∧ ∃ f, halt = .failed f) → (w.conclude ticket (x.run w.pager)).Serving →
      ∃ reply q, Served host w.pager request reply q ∧
        w.conclude ticket (x.run w.pager) = { w with pager := q, mailbox := w.mailbox.answer ticket reply } := by
    intro x ensures serving
    obtain ⟨reply, q, served | ⟨f, rfl, rfl⟩, same⟩ := conclude_serving w ticket x _ ensures serving
    · exact ⟨reply, q, served, same⟩
    · exact ⟨_, _, .refused request f, same⟩
  cases request with
  | allocate id template =>
      apply whole _ _ serving
      rw [ensures_bind]
      exact allocate_serves w.pager host id template ledger.index
  | free id =>
      apply whole _ _ serving
      rw [ensures_bind]
      exact free_serves w.pager host id ledger
  | reset id =>
      apply whole _ _ serving
      rw [ensures_bind]
      exact reset_serves w.pager host releases id ledger
  | shutdown => exact serving.elim

theorem fault_answered (host : Host) (w : Worker) (address : Nat) (q : Pager)
    (run : (resolve host (address / Page.size * Page.size)).run w.pager = .ok () q) :
    w.fault host address = { w with pager := q, interrupts := 0 } := by
  simp only [fault, run]

theorem fault_ended (host : Host) (w : Worker) (address : Nat) (halt : Halt) (q : Pager)
    (run : (resolve host (address / Page.size * Page.size)).run w.pager = .error halt q) :
    ¬ (w.fault host address).Serving := by
  simp only [fault, run]
  cases halt <;> exact id

theorem fault_keeps (host : Host) (w : Worker) (address : Nat) (settings : Settings) (keeps : Keeps settings w.pager)
    (serving : (w.fault host address).Serving) : Keeps settings (w.fault host address).pager := by
  have ensures := resolve_keeps w.pager settings host (address / Page.size * Page.size) keeps
  cases run : (resolve host (address / Page.size * Page.size)).run w.pager with
  | ok _ q =>
      have kept := ensures_result _ _ _ _ _ _ ensures run
      rw [fault_answered host w address q run]
      exact kept
  | error halt q => exact absurd serving (fault_ended host w address halt q run)

theorem holds_iff (o : Managed) (address : Nat) (sound : o.Sound) :
    o.mapping.holds address = true ↔ o.entry.Holds address := by
  have whole : Page.roundUp o.mapping.len = o.mapping.len := by
    rw [sound.len]
    exact Page.roundUp_of_dvd _ (Nat.dvd_add o.shape.header_whole o.shape.body_whole)
  simp only [Mapping.holds, whole, Bool.and_eq_true, decide_eq_true_eq]
  exact Iff.rfl

theorem mapping_at_iff (w : Worker) (address : Nat) (m : Mapping) (ledger : Ledger w.pager) :
    w.mappingAt? address = some m ↔ ∃ o ∈ w.pager.objects, o.entry.Holds address ∧ o.mapping = m := by
  have mappings : w.mappings = w.pager.objects.map Managed.mapping := by
    rw [mappings, ledger.remains, List.append_nil]
  rw [mappingAt?]
  rw [mappings]
  constructor
  · intro found
    obtain ⟨o, member, rfl⟩ := List.mem_map.mp (List.mem_of_find?_eq_some found)
    have holds := List.find?_some found
    exact ⟨o, member, (holds_iff o address (ledger.sound o member)).mp holds, rfl⟩
  · intro given
    obtain ⟨o, member, holds, rfl⟩ := given
    have held := (holds_iff o address (ledger.sound o member)).mpr holds
    cases found : (w.pager.objects.map Managed.mapping).find? fun m => m.holds address with
    | none => exact absurd held (List.find?_eq_none.mp found o.mapping (List.mem_map_of_mem member))
    | some other =>
        obtain ⟨x, xMember, rfl⟩ := List.mem_map.mp (List.mem_of_find?_eq_some found)
        have xHeld := List.find?_some found
        have xHolds := (holds_iff x address (ledger.sound x xMember)).mp xHeld
        rw [same_of_address w.pager o x address ledger.toCatalogue member xMember holds xHolds]

theorem modify_mapping_eq (w : Worker) (o : Managed) (address : Nat) (f : Mapping → Mapping) (ledger : Ledger w.pager)
    (member : o ∈ w.pager.objects) (holds : o.entry.Holds address) :
    w.modifyMapping address f =
      { w with pager := { w.pager with objects := revised w.pager.objects { o with mapping := f o.mapping } } } := by
  have objects : (w.pager.objects.map fun x =>
      { x with mapping := if x.mapping.holds address then f x.mapping else x.mapping }) =
      revised w.pager.objects { o with mapping := f o.mapping } := by
    apply List.map_congr_left
    intro x xMember
    by_cases same : x.id = o.id
    · have held := (holds_iff o address (ledger.sound o member)).mpr holds
      rw [if_pos same, same_of_id w.pager x o ledger.ids xMember member same, if_pos held]
    · have notHeld : ¬ x.mapping.holds address = true := fun held =>
        same (congrArg Managed.id (same_of_address w.pager x o address ledger.toCatalogue xMember member
          ((holds_iff x address (ledger.sound x xMember)).mp held) holds))
      rw [if_neg same, if_neg notHeld]
  have remains : ∀ g : Mapping → Mapping, w.pager.remains.map g = w.pager.remains := fun g => by
    rw [ledger.remains, List.map_nil]
  simp only [modifyMapping, objects, remains]

theorem store_keeps (w : Worker) (address : Nat) (m : Mapping) (b : UInt8) (settings : Settings)
    (keeps : Keeps settings w.pager) (found : w.mappingAt? address = some m)
    (present : m.isPresent (address - m.base) = true) :
    Keeps settings (w.modifyMapping address fun m => { m with bytes := m.bytes.setByte (address - m.base) b }).pager := by
  obtain ⟨o, member, holds, rfl⟩ := (mapping_at_iff w address m keeps.ledger).mp found
  rw [modify_mapping_eq w o address _ keeps.ledger member holds]
  exact ⟨ledger_stored w.pager o (address - o.mapping.base) b keeps.ledger member present, keeps.settings⟩

theorem idle_serving (w : Worker) (waited : Waited) (serving : (w.idle waited).Serving) :
    ∃ interrupts, w.idle waited = { w with interrupts } := by
  cases waited with
  | timedOut => exact ⟨0, rfl⟩
  | interrupted =>
      rw [idle] at serving ⊢
      split at serving
      · exact serving.elim
      · exact ⟨_, if_neg ‹_›⟩
  | failed cause => exact serving.elim

theorem advance_served (host : Host) (releases : host.Releases) (w : Worker) (ledger : w.Serving → Ledger w.pager)
    (serving : (w.advance host).Serving) : w.Serving ∧ ((w.advance host).pager = w.pager ∨
      ∃ ticket request mailbox reply, w.mailbox.next = some (ticket, request, mailbox) ∧
        Served host w.pager request reply (w.advance host).pager) := by
  rw [advance] at serving ⊢
  cases station : w.station with
  | waiting =>
      refine ⟨by simp only [Serving, station], Or.inl ?_⟩
      simp only [station] at serving ⊢
      by_cases rung : w.mailbox.bell.isRung = true
      · rw [if_pos rung]
      · rw [if_neg rung] at serving ⊢
        obtain ⟨interrupts, same⟩ := idle_serving w _ serving
        rw [same]
  | woken => exact ⟨by simp only [Serving, station], Or.inl rfl⟩
  | serving =>
      have before : w.Serving := by simp only [Serving, station]
      refine ⟨before, ?_⟩
      cases taken : w.mailbox.next with
      | none => exact Or.inl rfl
      | some front =>
          obtain ⟨ticket, request, mailbox⟩ := front
          simp only [station, taken] at serving ⊢
          obtain ⟨reply, q, served, same⟩ :=
            serve_served host releases { w with mailbox, station := .serving } ticket request (ledger before) serving
          refine Or.inr ⟨ticket, request, mailbox, reply, rfl, ?_⟩
          rw [same]
          exact served
  | refusing outcome =>
      simp only [station] at serving
      cases taken : w.mailbox.next with
      | none =>
          simp only [taken] at serving
          exact serving.elim
      | some front => simp [taken, Serving] at serving
  | closing outcome =>
      simp only [station] at serving
      exact serving.elim
  | closed outcome => simp [station, Serving] at serving

theorem advance_keeps (host : Host) (releases : host.Releases) (w : Worker) (settings : Settings)
    (keeps : w.Serving → Keeps settings w.pager)
    (fresh : ∀ ticket id template mailbox, w.mailbox.next = some (ticket, .allocate id template, mailbox) →
      ∀ o ∈ w.pager.objects, o.id ≠ id)
    (serving : (w.advance host).Serving) : Keeps settings (w.advance host).pager := by
  obtain ⟨before, same | ⟨ticket, request, mailbox, reply, taken, served⟩⟩ :=
    advance_served host releases w (fun serving => (keeps serving).ledger) serving
  · exact same ▸ keeps before
  · apply served_keeps w.pager settings host _ request reply (keeps before) _ served
    rintro id template rfl
    exact fresh ticket id template mailbox taken

-- The workers that come about when clients send requests, write to pages that exist and touch pages that do not, in any
-- order, while the worker takes its steps. An allocation is served under a number that no live object has. A fault may be
-- answered again, and the system may refuse anything but to take memory back when an object is reset.
inductive Reachable (settings : Settings) : Worker → Prop where
  | started (w : Worker) (start : Worker.start settings = .ok w) : Reachable settings w
  | sent (w : Worker) (request : Request) (before : Reachable settings w) : Reachable settings (w.send request).2
  | advanced (host : Host) (releases : host.Releases) (w : Worker) (before : Reachable settings w)
      (fresh : ∀ ticket id template mailbox, w.mailbox.next = some (ticket, .allocate id template, mailbox) →
        ∀ o ∈ w.pager.objects, o.id ≠ id) : Reachable settings (w.advance host)
  | faulted (host : Host) (w : Worker) (address : Nat) (before : Reachable settings w) :
      Reachable settings (w.fault host address)
  | stored (w : Worker) (address : Nat) (m : Mapping) (b : UInt8) (before : Reachable settings w)
      (found : w.mappingAt? address = some m) (present : m.isPresent (address - m.base) = true) :
      Reachable settings (w.modifyMapping address fun m => { m with bytes := m.bytes.setByte (address - m.base) b })

def unused (settings : Settings) : Worker where
  pager := {
    settings, index := .empty, objects := [], queue := .withCapacity settings.queueCapacity
    staging := { capacity := max settings.stagingPages 1 * Page.size, written := #[] }
    resident := 0, counters := .zero, watched := [], remains := [], journal := [] }
  mailbox := .empty
  station := .waiting
  interrupts := 0

inductive Move where
  | send (request : Request)
  | advance
  | fault (address : Nat)
  | store (address : Nat) (b : UInt8)

def make (host : Host) (w : Worker) : Move → Worker
  | .send request => (w.send request).2
  | .advance => w.advance host
  | .fault address => w.fault host address
  | .store address b => w.modifyMapping address fun m => { m with bytes := m.bytes.setByte (address - m.base) b }

def makes (host : Host) (w : Worker) : List Move → Worker
  | [] => w
  | move :: moves => makes host (w.make host move) moves

def permits (w : Worker) : Move → Bool
  | .send _ => true
  | .advance =>
    match w.mailbox.next with
    | some (_, .allocate id _, _) => w.pager.objects.all fun o => o.id != id
    | _ => true
  | .fault _ => decide w.Serving
  | .store address _ => (w.mappingAt? address).any fun m => m.isPresent (address - m.base)

def permitsAll (host : Host) (w : Worker) : List Move → Bool
  | [] => true
  | move :: moves => w.permits move && permitsAll host (w.make host move) moves

theorem fresh_of_permits (w : Worker) (permitted : w.permits .advance = true) :
    ∀ ticket id template mailbox, w.mailbox.next = some (ticket, .allocate id template, mailbox) →
      ∀ o ∈ w.pager.objects, o.id ≠ id := by
  intro ticket id template mailbox taken o member
  simp only [permits, taken, List.all_eq_true, bne_iff_ne, ne_eq] at permitted
  exact permitted o member

theorem mapping_of_permits (w : Worker) (address : Nat) (b : UInt8) (permitted : w.permits (.store address b) = true) :
    ∃ m, w.mappingAt? address = some m ∧ m.isPresent (address - m.base) = true :=
  (Option.any_eq_true _ _).mp permitted

theorem reachable_of_moves (settings : Settings) (host : Host) (releases : host.Releases) (moves : List Move) (w : Worker)
    (reachable : Reachable settings w) (permitted : w.permitsAll host moves = true) :
    Reachable settings (w.makes host moves) := by
  induction moves generalizing w with
  | nil => exact reachable
  | cons move moves ih =>
      rw [permitsAll, Bool.and_eq_true] at permitted
      refine ih _ ?_ permitted.2
      cases move with
      | send request => exact .sent w request reachable
      | advance => exact .advanced host releases w reachable (fresh_of_permits w permitted.1)
      | fault address => exact .faulted host w address reachable
      | store address b =>
          obtain ⟨m, found, present⟩ := mapping_of_permits w address b permitted.1
          exact .stored w address m b reachable found present

theorem fault_serving (host : Host) (w : Worker) (address : Nat) (serving : (w.fault host address).Serving) :
    w.Serving := by
  cases run : (resolve host (address / Page.size * Page.size)).run w.pager with
  | ok _ q =>
      rw [fault_answered host w address q run] at serving
      exact serving
  | error halt q => exact absurd serving (fault_ended host w address halt q run)

theorem start_eq (settings : Settings) (w : Worker) (start : Worker.start settings = .ok w) :
    ∃ p, Pager.start settings = .ok p ∧ w = { pager := p, mailbox := .empty, station := .waiting, interrupts := 0 } := by
  simp only [Worker.start, Word.bind_eq_ok] at start
  obtain ⟨p, started, same⟩ := start
  cases same
  exact ⟨p, started, rfl⟩

theorem keeps_of_reachable (settings : Settings) (w : Worker) (reachable : Reachable settings w) (serving : w.Serving) :
    Keeps settings w.pager := by
  induction reachable with
  | started w start =>
      obtain ⟨p, started, rfl⟩ := start_eq settings w start
      exact ⟨ledger_start settings p started, settings_start settings p started⟩
  | sent w request before ih => exact ih serving
  | advanced host releases w before fresh ih => exact advance_keeps host releases w settings ih fresh serving
  | faulted host w address before ih =>
      exact fault_keeps host w address settings (ih (fault_serving host w address serving)) serving
  | stored w address m b before found present ih => exact store_keeps w address m b settings (ih serving) found present

-- The totals pass their check between the steps of a worker that serves, and in every step that can follow.
theorem books_of_reachable (settings : Settings) (w : Worker) (reachable : Reachable settings w) (serving : w.Serving) :
    (w.pager.live.map fun r => (r.owner, r.chunk)).Nodup ∧
    (∀ r ∈ w.pager.live, ∃ o ∈ w.pager.objects, ∃ count chunk, r.owner = o.id ∧ o.layout.chunkCount = .ok count ∧
      r.chunk < count ∧ o.layout.chunk r.chunk = .ok chunk ∧
      r.address = o.mapping.base + o.layout.headerPadded + chunk.bodyOffset ∧ r.len = chunk.fillLen) ∧
    (∀ o ∈ w.pager.objects,
      (∀ k, k < o.layout.bodyReserved → ∃ chunk, o.layout.chunkAt k = .ok (some chunk) ∧
        (o.mapping.isPresent (o.layout.headerPadded + k) = true ↔
          ∃ r ∈ w.pager.live, r.owner = o.id ∧ r.chunk = chunk.index)) ∧
      (∀ k j, k < o.layout.bodyReserved → j < o.layout.bodyReserved → o.layout.chunkAt k = o.layout.chunkAt j →
        o.mapping.isPresent (o.layout.headerPadded + k) = o.mapping.isPresent (o.layout.headerPadded + j)) ∧
      ∀ k, k < o.layout.headerPadded → o.mapping.isPresent k = true) ∧
    ((w.pager.live.map Residency.len).sum = w.pager.resident ∧ w.pager.counters.residentBytes = w.pager.resident) ∧
    (w.pager.counters.residentBytes ≤ settings.high ∧ w.pager.counters.peakResidentBytes ≤ settings.high) ∧
    checkTotals.run w.pager = .ok () w.pager ∧
    (∀ host id template, AssertionFree (allocate host id template) w.pager) ∧
    (∀ id, AssertionFree (free id) w.pager ∧ ∀ host, AssertionFree (reset host id) w.pager) ∧
    ∀ host address, AssertionFree (resolve host address) w.pager := by
  have keeps := keeps_of_reachable settings w reachable serving
  have ledger := keeps.ledger
  have peak := ledger.peak
  have published := ledger.published
  rw [keeps.settings] at peak
  refine ⟨ledger.distinct, chunk_of_live w.pager ledger,
    fun o member => ⟨page_iff_live w.pager o ledger member, pages_together w.pager o ledger member,
      header_present w.pager o ledger member⟩,
    ⟨(sum_live w.pager).trans ledger.total, published⟩, ⟨by omega, peak.2⟩,
    check_totals_run w.pager ledger.total (keeps.settings ▸ by omega), fun host id template => ?_,
    fun id => ⟨?_, fun host => ?_⟩, fun host address => ?_⟩
  · refine assertion_free_of_ensures _ _ _ _ (allocate_serves w.pager host id template ledger.index) ?_
    intro text q given
    obtain ⟨-, f, impossible⟩ := given
    cases impossible
  · refine assertion_free_of_ensures _ _ _ _ (free_serves w.pager (Host.plain []) id ledger) ?_
    intro text q given
    obtain ⟨-, f, impossible⟩ := given
    cases impossible
  · refine assertion_free_of_ensures _ _ _ _ (reset_fails_softly w.pager host id ledger) ?_
    intro text q given
    obtain ⟨f, impossible⟩ := given
    cases impossible
  · exact assertion_free_of_ensures _ _ _ _ (resolve_keeps w.pager settings host address keeps) fun text q other =>
      other text rfl

end Worker

end DemandPaging

namespace DemandPaging

abbrev Platform.small : Platform := ⟨3, by decide⟩

attribute [local instance] Platform.small

-- Four pages, each of them a chunk. The filler writes the same byte everywhere, and fails when it has been called `tries` times.
def Template.fourPages (tries : Nat) : Template where
  shape := {
    headerSize := 0, elementCount := 4, stride := 8, perChunk := 1
    stride_pos := by decide
    perChunk_pos := by decide
    chunk_pages := by decide
    chunk_word := by decide
    size_le := by decide }
  readOnly := false
  filler := some fun _ calls => if calls < tries then .filled fun _ => some 1 else .failed 5
  client := none

def Settings.threePages : Settings where
  high := 24
  low := 16
  queueCapacity := 2
  stagingPages := 1
  waitMillis := 200
  maxInterrupts := 3
  swapDirectory := "swap"

namespace Worker

def first : Worker := unused .threePages

theorem start_first : Worker.start .threePages = .ok first := rfl

def granting (tries : Nat) : List Move := [.send (.allocate ⟨1⟩ (.fourPages tries)), .advance, .advance, .advance]

def granted (tries : Nat) : Worker := first.makes (Host.plain []) (granting tries)

-- Four pages are touched in turn, and the first one is written to. Room for the last is made by evicting the first two, of
-- which the first is touched again.
def pressing : List Move :=
  [.fault 65536, .store 65537 7, .fault 65544, .fault 65552, .fault 65560, .fault 65536]

def pressed (tries : Nat) : Worker := (granted tries).makes (Host.plain []) pressing

theorem reachable_granted : Reachable .threePages (granted 4) :=
  reachable_of_moves _ _ (Host.plain_yields []).releases (granting 4) _ (.started _ start_first) (by decide +kernel)

theorem reachable_pressed : Reachable .threePages (pressed 4) :=
  reachable_of_moves _ _ (Host.plain_yields []).releases pressing _ reachable_granted (by decide +kernel)

theorem object_pressed : ∃ o, (pressed 4).pager.objects = [o] ∧ o.entry = ⟨65536, 32, ⟨1⟩⟩ :=
  List.map_eq_singleton_iff.mp (by decide +kernel)

theorem books_of_five_faults : (pressed 4).pager.live.map Residency.chunk = [2, 3, 0] ∧
    (pressed 4).pager.counters.writebacks = 1 ∧ (pressed 4).pager.counters.restores = 1 ∧
    Pager.checkTotals.run (pressed 4).pager = .ok () (pressed 4).pager :=
  ⟨by decide +kernel, by decide +kernel, by decide +kernel,
    (books_of_reachable .threePages _ reachable_pressed (by decide +kernel)).2.2.2.2.2.1⟩

end Worker

end DemandPaging
