import DemandPaging.Proofs.Endings
import DemandPaging.Proofs.SavedBits

set_option autoImplicit false

namespace DemandPaging

variable [Platform]

namespace Pager

def Counted (p : Pager) : Prop := p.counters.liveObjects = p.objects.length

def SameNumber (p q : Pager) : Prop :=
  q.counters.liveObjects = p.counters.liveObjects ∧ q.objects.length = p.objects.length

theorem counted_same_number (p q : Pager) (same : SameNumber p q) (counted : p.Counted) : q.Counted := by
  rw [Counted]
  rw [same.1, same.2]
  exact counted

theorem same_number_trans (p q s : Pager) (first : SameNumber p q) (second : SameNumber q s) : SameNumber p s :=
  ⟨second.1.trans first.1, second.2.trans first.2⟩

theorem length_revised (objects : List Managed) (later : Managed) : (revised objects later).length = objects.length :=
  List.length_map _

theorem same_number_turns (p q : Pager) (turns : Turns p q) : SameNumber p q := by
  induction turns with
  | refl => exact ⟨rfl, rfl⟩
  | tail before last ih =>
      refine same_number_trans p _ _ ih ?_
      cases last with
      | retired => exact ⟨rfl, rfl⟩
      | evicted oldest queue o later => exact ⟨rfl, length_revised _ later⟩

theorem same_number_resolved (p q : Pager) (address : Nat) (resolved : Resolved p address q) : SameNumber p q := by
  cases resolved with
  | header => exact ⟨rfl, rfl⟩
  | body o now k calls bytes roomy supplied q member place inside room becomes nowMember sourced there installed =>
      have first : SameNumber p roomy := same_number_turns p.noticed roomy (turns_of_room p.noticed roomy _ room)
      have second : SameNumber roomy supplied := by
        cases sourced with
        | restored => exact ⟨rfl, rfl⟩
        | filled => exact ⟨rfl, length_revised _ _⟩
      have third : SameNumber supplied q := by
        cases installed with
        | fresh => exact ⟨rfl, length_revised _ _⟩
        | present => exact ⟨rfl, rfl⟩
      exact same_number_trans p roomy q first (same_number_trans roomy supplied q second third)

theorem counted_served (p q : Pager) (host : Host) (request : Request) (reply : Reply) (counted : p.Counted)
    (served : Served host p request reply q) : q.Counted := by
  cases served with
  | allocated id template grant q allocated =>
      cases allocated
      rfl
  | freed => rfl
  | emptied o => exact counted_same_number p _ ⟨rfl, length_revised _ _⟩ counted
  | refused => exact counted

end Pager

namespace Worker

open Pager

theorem counted_of_reachable (settings : Settings) (w : Worker) (reachable : Reachable settings w) (serving : w.Serving) :
    w.pager.Counted := by
  induction reachable with
  | started w start =>
      obtain ⟨p, started, rfl⟩ := start_eq settings w start
      simp only [Pager.start, Word.bind_eq_ok] at started
      obtain ⟨_, _, _, _, _, _, staging, _, same⟩ := started
      cases same
      rfl
  | sent w request before ih => exact ih serving
  | advanced host releases w before fresh ih =>
      have ledger := fun serving => (keeps_of_reachable settings w before serving).ledger
      obtain ⟨servingBefore, same | ⟨ticket, request, mailbox, reply, taken, served⟩⟩ :=
        advance_served host releases w ledger serving
      · exact same ▸ ih servingBefore
      · exact counted_served _ _ host request reply (ih servingBefore) served
  | faulted host w address before ih =>
      have servingBefore := fault_serving host w address serving
      have ledger := (keeps_of_reachable settings w before servingBefore).ledger
      have ensures := resolve_ensures host w.pager (address / Page.size * Page.size) ledger
      cases run : (resolve host (address / Page.size * Page.size)).run w.pager with
      | ok _ q =>
          have resolved := (ensures_result _ _ _ _ _ _ ensures run).2
          rw [fault_answered host w address q run]
          exact counted_same_number _ _ (same_number_resolved _ q _ resolved) (ih servingBefore)
      | error halt q => exact absurd serving (fault_ended host w address halt q run)
  | stored w address m b before found present ih =>
      refine counted_same_number w.pager _ ⟨rfl, ?_⟩ (ih serving)
      simp only [modifyMapping, List.length_map]

end Worker

structure Managed.New (o : Managed) (id : ObjectId) (template : Template) (grant : Grant) : Prop where
  number : o.id = id
  origin : o.template = template
  layout : o.layout = template.layout
  place : o.mapping.span = ⟨grant.base, grant.size⟩
  header : ∀ k, k < o.layout.headerPadded → o.mapping.isPresent k = true ∧ o.mapping.bytes.byte k = 0
  body : ∀ k, k < o.layout.bodyReserved → o.mapping.isPresent (o.layout.headerPadded + k) = false
  store : o.swap.isSome = true ↔ template.readOnly = false ∧ template.layout.bodyLen ≠ 0
  unsaved : ∀ s, o.swap = some s → s.dirtyCount = 0
  uncalled : o.calls = 0

namespace Pager

structure Grants (p : Pager) (id : ObjectId) (template : Template) (grant : Grant) (q : Pager) : Prop where
  object : ∃ o, o.New id template grant ∧ q.objects = o :: p.objects
  size : template.layout.trueSize = .ok grant.size
  range : q.index.toList.Perm (⟨grant.base, grant.size, id⟩ :: p.index.toList)
  apart : ∀ e ∈ p.index.toList, e.stop ≤ grant.base ∨ grant.base + grant.size ≤ e.base
  registered : q.watched = ⟨grant.base, grant.size⟩ :: p.watched
  counters : q.counters = { p.counters with liveObjects := p.counters.liveObjects + 1 }
  records : q.queue = p.queue ∧ q.resident = p.resident ∧ q.journal = p.journal
  rest : q.settings = p.settings ∧ q.staging = p.staging ∧ q.remains = p.remains

section

variable (p : Pager) (host : Host) (id : ObjectId) (template : Template)

theorem new_of_opened (base : Nat) (used : List Span) (directory : String) (swap : Option SwapStore)
    (opened : Opened host used directory template swap) :
    (freshObject id template base swap).New id template ⟨base, template.shape.size⟩ where
  number := rfl
  origin := rfl
  layout := rfl
  place := rfl
  header k inside := by
    have page := template.shape.header_page k inside
    have front : 0 ≤ k / Page.size ∧ k / Page.size < 0 + template.shape.headerPadded / Page.size :=
      ⟨Nat.zero_le _, (Nat.zero_add _).symm ▸ page⟩
    refine ⟨?_, ?_⟩
    · simp only [freshObject, Mapping.isPresent, SparseBytes.present_zero, front, and_self, decide_true, Bool.true_or]
    · simp only [freshObject, SparseBytes.byte_zero, if_pos front]
  body k _ := fresh_object_has_body id template base k swap
  store := by
    cases opened with
    | needless never =>
        rw [Bool.or_eq_true, beq_iff_eq] at never
        refine ⟨fun impossible => (by cases impossible), fun given => ?_⟩
        rcases never with readOnly | none
        · rw [given.1] at readOnly
          cases readOnly
        · exact absurd none given.2
    | made place needed file size placed =>
        rw [Bool.or_eq_false_iff, beq_eq_false_iff_ne] at needed
        exact ⟨fun _ => needed, fun _ => rfl⟩
  unsaved s same := by
    cases opened with
    | needless never => cases same
    | made place needed file size placed =>
        cases same
        have sound := SwapStore.fresh_sound template.shape place
        rw [SwapStore.dirty_count_eq _ template.shape sound, Finset.card_eq_zero, Finset.filter_eq_empty_iff]
        intro i _
        rw [SwapStore.fresh_saved]
        exact Bool.false_ne_true
  uncalled := rfl

theorem grants_of_settled (base : Nat) (swap : Option SwapStore) (index : AddressMap ObjectId) (counted : p.Counted)
    (unused : ∀ o ∈ p.objects, o.id ≠ id) (free : ∀ e ∈ p.index.toList, ¬ e.Meets base template.shape.size)
    (opened : Opened host (⟨base, template.shape.size⟩ :: p.spans) p.settings.swapDirectory template swap)
    (listed : index.toList.Perm (⟨base, template.shape.size, id⟩ :: p.index.toList)) :
    Grants p id template ⟨base, template.shape.size⟩ (p.grown (freshObject id template base swap) index) := by
  have kept : (p.objects.filter fun x => x.id ≠ id) = p.objects :=
    List.filter_eq_self.mpr fun x member => decide_eq_true (unused x member)
  have objects : (p.grown (freshObject id template base swap) index).objects =
      freshObject id template base swap :: p.objects := congrArg (_ :: ·) kept
  refine {
    object := ⟨_, new_of_opened host id template base _ _ swap opened, objects⟩
    size := template.shape.layout_true_size, range := listed, apart := fun e member => ?_, registered := rfl
    counters := ?_, records := ⟨rfl, rfl, rfl⟩, rest := ⟨rfl, rfl, rfl⟩ }
  · have separate := free e member
    rw [Entry.Meets] at separate
    dsimp only
    omega
  · have number : (p.grown (freshObject id template base swap) index).counters =
        p.counters.setLive (p.grown (freshObject id template base swap) index).objects.length := rfl
    rw [number, objects, List.length_cons, ← show p.counters.liveObjects = p.objects.length from counted]
    rfl

theorem too_large_run (sound : p.index.Sound) (large : p.TooLarge template) :
    (allocate host id template).run p =
      .error (.failed (.chunkExceedsBudget (template.shape.piece 0).fillLen p.settings.high)) p := by
  have ensures := allocate_settles p host id template sound
  cases run : (allocate host id template).run p with
  | ok grant q =>
      obtain ⟨base, swap, index, readies, -⟩ := ensures_result _ _ _ _ _ _ ensures run
      exact absurd large readies.fits
  | error halt q =>
      obtain ⟨rfl, ⟨failure, rfl, refuses⟩ | ⟨base, why, rfl, readies, -⟩⟩ := ensures_failure _ _ _ _ _ _ ensures run
      · cases refuses with
        | tooLarge => rfl
        | empty fits => exact absurd large fits
        | memory fits => exact absurd large fits
        | unwatched base cause maps => exact absurd large maps.fits
        | unsupported base maps => exact absurd large maps.fits
        | unzeroed base cause maps => exact absurd large maps.fits
        | store base failure readies => exact absurd large readies.fits
      · exact absurd large readies.fits

theorem settled_not_refused (base : Nat) (swap : Option SwapStore) (readies : Readies host p template base)
    (opened : Opened host (⟨base, template.shape.size⟩ :: p.spans) p.settings.swapDirectory template swap)
    (failure : Failure) : ¬ Refuses host p template failure := by
  have maps := readies.toMaps
  have same : ∀ other, Maps host p template other → other = base := fun other otherMaps =>
    Option.some.inj (otherMaps.placed.symm.trans maps.placed)
  intro refuses
  cases refuses with
  | tooLarge large => exact maps.fits large
  | empty fits nothing => exact maps.nonempty nothing
  | memory fits nonempty full =>
      rw [maps.placed] at full
      cases full
  | unwatched other cause otherMaps refused =>
      obtain rfl := same other otherMaps
      cases readies.watched.symm.trans refused
  | unsupported other otherMaps watched lacks =>
      obtain rfl := same other otherMaps
      cases readies.supported.symm.trans lacks
  | unzeroed other cause otherMaps watched supported header refused =>
      obtain rfl := same other otherMaps
      cases (readies.zeroed header).symm.trans refused
  | store other failure otherReadies unopened =>
      obtain rfl := same other otherReadies.toMaps
      cases opened with
      | needless never =>
          cases unopened with
          | file cause needed => exact absurd (never.symm.trans needed) (by decide)
          | size cause needed => exact absurd (never.symm.trans needed) (by decide)
          | memory needed => exact absurd (never.symm.trans needed) (by decide)
      | made place needed file size placed =>
          cases unopened with
          | file cause needed refused => cases file.symm.trans refused
          | size cause needed file refused => cases size.symm.trans refused
          | memory needed file size full => cases placed.symm.trans full

end

end Pager

namespace Worker

open Pager

structure Refused (w : Worker) (host : Host) (id : ObjectId) (template : Template) (failure : Failure) : Prop where
  run : (allocate host id template).run w.pager = .error (.failed failure) w.pager
  soft : endsWorker failure = false
  served : ∀ ticket mailbox, serve host { w with mailbox } ticket (.allocate id template) =
    { w with mailbox := mailbox.answer ticket (.failed failure) }

structure Granted (w : Worker) (host : Host) (id : ObjectId) (template : Template) (grant : Grant) (q : Pager) : Prop where
  run : (allocate host id template).run w.pager = .ok grant q
  grants : Grants w.pager id template grant q
  served : ∀ ticket mailbox, serve host { w with mailbox } ticket (.allocate id template) =
    { w with pager := q, mailbox := mailbox.answer ticket (.granted grant) }

theorem refused_of_run (w : Worker) (host : Host) (id : ObjectId) (template : Template) (failure : Failure)
    (run : (allocate host id template).run w.pager = .error (.failed failure) w.pager)
    (refusal : Refusal template failure) : w.Refused host id template failure := by
  have soft := refusal_goes_on template failure refusal
  refine ⟨run, soft, fun ticket mailbox => ?_⟩
  rw [serve, EStateM.run_bind, run]
  simp only [conclude, soft, Bool.false_eq_true, if_false]

theorem granted_of_run (w : Worker) (host : Host) (id : ObjectId) (template : Template) (grant : Grant) (q : Pager)
    (run : (allocate host id template).run w.pager = .ok grant q) (grants : Grants w.pager id template grant q) :
    w.Granted host id template grant q := by
  refine ⟨run, grants, fun ticket mailbox => ?_⟩
  rw [serve, EStateM.run_bind, run]
  rfl

-- A refused allocation leaves everything as it was; one that is granted adds an object and nothing else.
theorem allocation_all_or_nothing (settings : Settings) (w : Worker) (host : Host) (id : ObjectId) (template : Template)
    (reachable : Reachable settings w) (serving : w.Serving) (unused : ∀ o ∈ w.pager.objects, o.id ≠ id)
    (spares : host.Spares w.pager.spans) :
    ((∃ failure, Refuses host w.pager template failure ∧ w.Refused host id template failure) ∨
      ((∀ failure, ¬ Refuses host w.pager template failure) ∧ ∃ grant q, w.Granted host id template grant q)) ∧
    (w.pager.TooLarge template → ∀ other : Host, (allocate other id template).run w.pager =
      .error (.failed (.chunkExceedsBudget (template.shape.piece 0).fillLen w.pager.settings.high)) w.pager) := by
  have ledger := (keeps_of_reachable settings w reachable serving).ledger
  have counted := counted_of_reachable settings w reachable serving
  refine ⟨?_, fun large other => too_large_run w.pager other id template ledger.index large⟩
  have ensures := allocate_settles w.pager host id template ledger.index
  cases run : (allocate host id template).run w.pager with
  | ok grant q =>
      obtain ⟨base, swap, index, readies, opened, -, listed, rfl, rfl⟩ := ensures_result _ _ _ _ _ _ ensures run
      obtain ⟨-, free⟩ := placed_free w.pager host template base ledger.toCatalogue spares readies.placed
      exact Or.inr ⟨settled_not_refused w.pager host template base swap readies opened, _, _,
        granted_of_run w host id template _ _ run
          (grants_of_settled w.pager host id template base swap index counted unused free opened listed)⟩
  | error halt q =>
      obtain ⟨rfl, ⟨failure, rfl, refuses⟩ | ⟨base, why, rfl, readies, taken⟩⟩ := ensures_failure _ _ _ _ _ _ ensures run
      · exact Or.inl ⟨failure, refuses,
          refused_of_run w host id template failure run (refusal_of_refuses _ host template failure refuses)⟩
      · obtain ⟨inside, free⟩ := placed_free w.pager host template base ledger.toCatalogue spares readies.placed
        exact absurd ⟨readies.nonempty, inside, free⟩ taken

end Worker

end DemandPaging

namespace DemandPaging

attribute [local instance] Platform.small

def Host.blind : Host :=
  { Host.plain [] with refuse := fun | .watch _ => some (.numbered SystemError.outOfMemory) | _ => none }

namespace Worker

open Pager

theorem refused_without_registration : ∃ failure, (pressed 4).Refused Host.blind ⟨2⟩ (.fourPages 4) failure := by
  have spares : Host.blind.Spares (pressed 4).pager.spans :=
    Host.spares_of_orderly _ _ (Host.plain_orderly []) (by decide +kernel)
  rcases (allocation_all_or_nothing .threePages _ Host.blind ⟨2⟩ (.fourPages 4) reachable_pressed (by decide +kernel)
    (by decide +kernel) spares).1 with ⟨failure, -, refused⟩ | ⟨granted, -⟩
  · exact ⟨failure, refused⟩
  · obtain ⟨base, placed⟩ := Option.isSome_iff_exists.mp
      (by decide +kernel : (Host.blind.place (pressed 4).pager.spans (Template.fourPages 4).shape.size).isSome)
    have maps : Maps Host.blind (pressed 4).pager (.fourPages 4) base := ⟨by decide +kernel, by decide, placed⟩
    exact absurd (.unwatched base _ maps rfl) (granted (.resource "UFFDIO_REGISTER" (.numbered SystemError.outOfMemory)))

end Worker

end DemandPaging
