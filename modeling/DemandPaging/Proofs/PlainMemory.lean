import DemandPaging.Proofs.MirroredSteps
import DemandPaging.Proofs.MissingPages

set_option autoImplicit false

namespace DemandPaging

variable [Platform]

namespace Worker

open Pager

structure Idle (w : Worker) : Prop where
  station : w.station = .waiting
  queue : w.mailbox.queue = []
  silent : w.mailbox.bell.isRung = false
  isOpen : w.mailbox.isOpen = true
  patient : w.interrupts = 0

def holding (w : Worker) (request : Request) : Worker where
  pager := w.pager
  mailbox := { tickets := w.mailbox.tickets.push ⟨request, .held⟩, queue := [], bell := .silent, isOpen := true }
  station := .serving
  interrupts := 0

section

variable (host : Host) (w : Worker)

theorem run_add (first second : Nat) (w : Worker) : run host (first + second) w = run host second (run host first w) := by
  induction first generalizing w with
  | zero => rw [Nat.zero_add, run]
  | succ first ih => rw [Nat.succ_add, run, run, ih]

theorem advance_idle (yields : host.Yields) (idle : w.Idle) : w.advance host = w := by
  obtain ⟨pager, mailbox, station, interrupts⟩ := w
  obtain ⟨rfl, -, silent, -, rfl⟩ := idle
  have silent : mailbox.bell.isRung = false := silent
  simp only [advance, silent, Bool.false_eq_true, if_false, yields.waits, Worker.idle]

theorem run_idle (yields : host.Yields) (steps : Nat) (idle : w.Idle) : run host steps w = w := by
  induction steps with
  | zero => rfl
  | succ steps ih => rw [run, advance_idle host w yields idle, ih]

theorem advance_ended (ended : ¬ w.Serving) : ¬ (w.advance host).Serving := by
  cases station : w.station with
  | refusing outcome =>
      simp only [advance, station]
      cases w.mailbox.next <;> simp [Serving]
  | closing outcome => simp [advance, station, Serving]
  | closed outcome =>
      simp only [advance, station]
      exact ended
  | _ => exact absurd (by simp only [Serving, station]) ended

theorem run_ended (steps : Nat) (w : Worker) (ended : ¬ w.Serving) : ¬ (run host steps w).Serving := by
  induction steps generalizing w with
  | zero => exact ended
  | succ steps ih => exact ih (w.advance host) (advance_ended host w ended)

theorem run_sent (request : Request) (idle : w.Idle) :
    run host 3 (w.send request).2 = (w.holding request).serve host w.mailbox.tickets.size request := by
  have held : (w.mailbox.tickets.push ⟨request, .queued⟩).modify w.mailbox.tickets.size
      (fun t => { t with progress := .held }) = w.mailbox.tickets.push ⟨request, .held⟩ := by
    apply Array.ext
    · simp only [Array.size_modify, Array.size_push]
    · intro i _ inside
      rw [Array.size_push] at inside
      by_cases newest : i = w.mailbox.tickets.size
      · subst newest
        rw [Array.getElem_modify_self, Array.getElem_push_eq, Array.getElem_push_eq]
      · have before : i < w.mailbox.tickets.size := by omega
        rw [Array.getElem_modify_of_ne (Ne.symm newest), Array.getElem_push_lt before, Array.getElem_push_lt before]
  have rung : w.mailbox.bell.ring.isRung = true := by
    have some : 0 < min (w.mailbox.bell.rings + 1) (Word.limit - 2) :=
      Nat.lt_min.mpr ⟨Nat.succ_pos _, by decide⟩
    exact decide_eq_true some
  simp only [run, send, Mailbox.send, idle.isOpen, if_true, Mailbox.enqueue, Mailbox.ring, advance, idle.station, rung,
    Mailbox.silence, Mailbox.next, idle.queue, List.nil_append, Array.getElem?_push_size, Option.map_some,
    Mailbox.setProgress, Bell.silence, held]
  rfl

theorem call_served (yields : host.Yields) (request : Request) (idle : w.Idle) (ledger : Ledger w.pager)
    (serving : (w.call host request).2.Serving) :
    Served host w.pager request (w.call host request).1 (w.call host request).2.pager ∧ (w.call host request).2.Idle := by
  have sends : w.send request = (.ok (), (w.send request).2) := by
    simp only [send, Mailbox.send, idle.isOpen, if_true]
  have queued : (w.send request).2.mailbox.queue.length + 6 = 3 + 4 := by
    simp only [send, Mailbox.send, idle.isOpen, if_true, Mailbox.enqueue, Mailbox.ring, idle.queue, List.nil_append,
      List.length_singleton]
  have settled : (w.send request).2.settle host =
      run host 4 ((w.holding request).serve host w.mailbox.tickets.size request) := by
    rw [settle, queued, run_add, run_sent host w request idle]
  rw [call] at serving ⊢
  rw [sends] at serving ⊢
  simp only [settled] at serving ⊢
  by_cases goesOn : ((w.holding request).serve host w.mailbox.tickets.size request).Serving
  · obtain ⟨reply, q, served, same⟩ :=
      serve_served host yields.releases (w.holding request) w.mailbox.tickets.size request ledger goesOn
    generalize answered : (w.holding request).mailbox.answer w.mailbox.tickets.size reply = mailbox at same
    have idleAfter : Idle { pager := q, mailbox, station := .waiting, interrupts := 0 } := by
      subst answered
      exact ⟨rfl, rfl, rfl, rfl, rfl⟩
    have waits : run host 4 ((w.holding request).serve host w.mailbox.tickets.size request) =
        { pager := q, mailbox, station := .waiting, interrupts := 0 } := by
      have empty : mailbox.queue = [] := idleAfter.queue
      have next : mailbox.next = none := by
        simp only [Mailbox.next, empty]
      rw [same, run]
      simp only [advance, holding, next]
      exact run_idle host _ yields 3 idleAfter
    have received : mailbox.received? w.mailbox.tickets.size = some reply := by
      subst answered
      simp [Mailbox.received?, Mailbox.answer, Mailbox.setProgress, holding, Array.getElem_modify_self]
    simp only [waits, received, Option.getD_some]
    exact ⟨served, idleAfter⟩
  · exact absurd serving (run_ended host 4 _ goesOn)

theorem touch_object (o : Managed) (k : Nat) (ledger : Ledger w.pager) (member : o ∈ w.pager.objects)
    (inside : k < o.shape.size) : w.touch host (o.mapping.base + k) =
      if o.mapping.isPresent k then w else (w.fault host (o.mapping.base + k)).settle host := by
  have holds := o.holds_of_offset k (ledger.sound o member) inside
  have found := (mapping_at_iff w _ o.mapping ledger).mpr ⟨o, member, holds, rfl⟩
  have watched : w.pager.watched.contains o.mapping.span = true := List.contains_iff_mem.mpr (ledger.watched o member)
  simp only [touch, found, watched, Nat.add_sub_cancel_left, Bool.not_true, Bool.or_false]

theorem settle_fault (yields : host.Yields) (address : Nat) (q : Pager) (idle : w.Idle)
    (run : (resolve host (address / Page.size * Page.size)).run w.pager = .ok () q) :
    (w.fault host address).settle host = { w with pager := q } := by
  have patient := idle.patient
  rw [fault_answered host w address q run]
  rw [← patient]
  exact run_idle host _ yields _ ⟨idle.station, idle.queue, idle.silent, idle.isOpen, idle.patient⟩

theorem touch_cases (yields : host.Yields) (o : Managed) (k : Nat) (idle : w.Idle) (ledger : Ledger w.pager)
    (member : o ∈ w.pager.objects) (inside : k < o.shape.size) (serving : (w.touch host (o.mapping.base + k)).Serving) :
    (o.mapping.isPresent k = true ∧ w.touch host (o.mapping.base + k) = w) ∨
    ∃ q, o.mapping.isPresent k = false ∧ w.touch host (o.mapping.base + k) = { w with pager := q } ∧ Ledger q ∧
      Resolved w.pager ((o.mapping.base + k) / Page.size * Page.size) q := by
  have ensures := resolve_ensures host w.pager ((o.mapping.base + k) / Page.size * Page.size) ledger
  rw [touch_object host w o k ledger member inside] at serving ⊢
  cases present : o.mapping.isPresent k with
  | true => exact Or.inl ⟨rfl, if_pos rfl⟩
  | false =>
      right
      simp only [present, Bool.false_eq_true, if_false] at serving ⊢
      cases run : (resolve host ((o.mapping.base + k) / Page.size * Page.size)).run w.pager with
      | ok _ q => exact ⟨q, trivial, settle_fault host w yields _ q idle run, ensures_result _ _ _ _ _ _ ensures run⟩
      | error halt q => exact absurd serving (run_ended host _ _ (fault_ended host w _ halt q run))

end

-- The client's touch of an address goes through, and no chunk that it evicted was taken for other bytes of the same digest.
structure Undisturbed (host : Host) (w : Worker) (s : Shadow) (address : Nat) : Prop where
  serving : (w.touch host address).Serving
  honest : Undeceived w.pager (w.touch host address).pager s.installed

instance (host : Host) (w : Worker) (s : Shadow) (address : Nat) : Decidable (Undisturbed host w s address) :=
  decidable_of_iff ((w.touch host address).Serving ∧ Undeceived w.pager (w.touch host address).pager s.installed)
    ⟨fun given => ⟨given.1, given.2⟩, fun given => ⟨given.serving, given.honest⟩⟩

structure Plain (settings : Settings) (w : Worker) (s : Shadow) : Prop where
  idle : w.Idle
  keeps : Keeps settings w.pager
  aligned : w.pager.Aligned
  mirrors : w.pager.Mirrors s

-- Runs of a worker whose clients take turns, beside the plain memory. An object is allocated under a number that no other
-- has, with a filler that always writes the same bytes; what is read and written lies in an object. The system places mappings
-- well and does what is asked of it.
inductive PlainRun (settings : Settings) : Worker → Shadow → Prop where
  | started (w : Worker) (start : Worker.start settings = .ok w) : PlainRun settings w .empty
  | called (host : Host) (orderly : host.Orderly) (yields : host.Yields) (w : Worker) (s : Shadow) (request : Request)
      (value : Nat → UInt8) (before : PlainRun settings w s)
      (fresh : ∀ id template, request = .allocate id template → s.memory id = none ∧ template.Fills value)
      (serving : (w.call host request).2.Serving) :
      PlainRun settings (w.call host request).2 (s.serve value request (w.call host request).1)
  | read (host : Host) (yields : host.Yields) (w : Worker) (s : Shadow) (id : ObjectId) (x : PlainObject) (k : Nat)
      (before : PlainRun settings w s) (held : s.memory id = some x) (inside : k < x.template.shape.size)
      (undisturbed : Undisturbed host w s (x.base + k)) :
      PlainRun settings (w.read host (x.base + k) 1).2 (s.noting w.pager (w.read host (x.base + k) 1).2.pager)
  | written (host : Host) (yields : host.Yields) (w : Worker) (s : Shadow) (id : ObjectId) (x : PlainObject) (k : Nat)
      (b : UInt8) (before : PlainRun settings w s) (held : s.memory id = some x) (inside : k < x.template.shape.size)
      (undisturbed : Undisturbed host w s (x.base + k)) :
      PlainRun settings (w.write host (x.base + k) [b])
        ((s.noting w.pager (w.touch host (x.base + k)).pager).put id (some (x.store k b)))

section

variable (host : Host) (settings : Settings) (w : Worker) (s : Shadow)

theorem plain_started (start : Worker.start settings = .ok w) : Plain settings w .empty := by
  obtain ⟨p, started, rfl⟩ := start_eq settings w start
  refine ⟨⟨rfl, rfl, rfl, rfl, rfl⟩, ⟨ledger_start settings p started, settings_start settings p started⟩,
    aligned_start p settings started, ⟨fun id x held => ?_, fun o member => ?_⟩⟩
  · cases held
  · rw [objects_start settings p started] at member
    cases member

theorem plain_called (orderly : host.Orderly) (yields : host.Yields) (request : Request) (value : Nat → UInt8)
    (plain : Plain settings w s)
    (fresh : ∀ id template, request = .allocate id template → s.memory id = none ∧ template.Fills value)
    (serving : (w.call host request).2.Serving) :
    Plain settings (w.call host request).2 (s.serve value request (w.call host request).1) := by
  have ledger := plain.keeps.ledger
  obtain ⟨served, idle⟩ := call_served host w yields request plain.idle ledger serving
  have unused : ∀ id template, request = .allocate id template → ∀ o ∈ w.pager.objects, o.id ≠ id := by
    intro id template allocates o member same
    obtain ⟨x, held, -⟩ := plain.mirrors.shown o member
    rw [same, (fresh id template allocates).1] at held
    cases held
  exact ⟨idle, served_keeps w.pager settings host _ request _ plain.keeps unused served,
    aligned_served w.pager host orderly plain.aligned _ request _ ledger served,
    mirrors_served w.pager s host _ request _ value ledger plain.mirrors fresh served⟩

theorem plain_touched (yields : host.Yields) (id : ObjectId) (x : PlainObject) (k : Nat) (plain : Plain settings w s)
    (held : s.memory id = some x) (inside : k < x.template.shape.size) (undisturbed : Undisturbed host w s (x.base + k)) :
    Plain settings (w.touch host (x.base + k)) (s.noting w.pager (w.touch host (x.base + k)).pager) ∧
    ∃ o ∈ (w.touch host (x.base + k)).pager.objects, o.id = id ∧ o.mapping.isPresent k = true := by
  have ledger := plain.keeps.ledger
  obtain ⟨o, member, rfl⟩ := plain.mirrors.held id x held
  obtain ⟨y, same, shows, -⟩ := plain.mirrors.shown o member
  cases held.symm.trans same
  obtain ⟨serving, honest⟩ := undisturbed
  have size : x.template.shape.size = o.shape.size := by rw [← shows.template]
  rw [← shows.base] at serving honest ⊢
  rw [size] at inside
  have holds := o.holds_of_offset k (ledger.sound o member) inside
  obtain ⟨present, stays⟩ | ⟨q, missing, moves, after, resolved⟩ :=
    touch_cases host w yields o k plain.idle ledger member inside serving
  · rw [stays, Shadow.noting, noted_same w.pager w.pager s.installed fun _ _ resident => resident]
    exact ⟨plain, o, member, rfl, present⟩
  · rw [moves] at honest ⊢
    have lasts := resolved_lasts w.pager _ q ledger resolved
    obtain ⟨later, laterMember, becomes⟩ := lasts.forth o member
    have absent := not_resident_of_missing w.pager o (o.mapping.base + k) ledger plain.aligned member holds
      (by rw [Nat.add_sub_cancel_left]; exact missing)
    have present := resolved_present w.pager q o later (o.mapping.base + k) ledger after plain.aligned member holds
      laterMember becomes resolved
    rw [Nat.add_sub_cancel_left] at present
    refine ⟨⟨⟨plain.idle.station, plain.idle.queue, plain.idle.silent, plain.idle.isOpen, plain.idle.patient⟩,
      ⟨after, (settings_resolved w.pager q _ resolved).trans plain.keeps.settings⟩,
      aligned_lasts w.pager q plain.aligned lasts,
      mirrors_resolved w.pager q s _ ledger plain.mirrors absent resolved honest⟩, later, laterMember, becomes.id, present⟩

theorem touch_goes_on (yields : host.Yields) (id : ObjectId) (x : PlainObject) (k : Nat) (plain : Plain settings w s)
    (held : s.memory id = some x) (inside : k < x.template.shape.size) (given : x.template.filler ≠ none)
    (steady : ∀ start stop code, ¬ x.template.Fails start stop code)
    (small : ∀ i, i < x.template.shape.chunks → (x.template.shape.piece i).fillLen ≤ settings.low) :
    (w.touch host (x.base + k)).Serving := by
  have ledger := plain.keeps.ledger
  obtain ⟨o, member, rfl⟩ := plain.mirrors.held id x held
  obtain ⟨y, same, shows, -⟩ := plain.mirrors.shown o member
  cases held.symm.trans same
  rw [← shows.template] at inside given steady small
  have serving : w.Serving := by simp only [Serving, plain.idle.station]
  rw [← shows.base, touch_object host w o k ledger member inside]
  cases present : o.mapping.isPresent k with
  | true => exact serving
  | false =>
      have holds := o.holds_of_offset k (ledger.sound o member) inside
      have ensures := missing_ensures w.pager o host yields (o.mapping.base + k) ledger plain.aligned member holds
        (by rw [Nat.add_sub_cancel_left]; exact present) given
      simp only [Bool.false_eq_true, if_false]
      cases run : (resolve host ((o.mapping.base + k) / Page.size * Page.size)).run w.pager with
      | ok _ q =>
          rw [settle_fault host w yields _ q plain.idle run]
          exact serving
      | error halt q =>
          have justified := ensures_failure _ _ _ _ _ _ ensures run
          rw [plain.keeps.settings] at justified
          cases justified with
          | unfilled start stop code fails => exact absurd fails (steady start stop code)
          | full i inside large => exact absurd (small i inside) (Nat.not_le.mpr large)

theorem load_plain (o : Managed) (x : PlainObject) (k : Nat) (plain : Plain settings w s) (member : o ∈ w.pager.objects)
    (held : s.memory o.id = some x) (writable : x.template.readOnly = false) (inside : k < x.template.shape.size)
    (present : o.mapping.isPresent k = true) :
    ∃ m, w.mappingAt? (x.base + k) = some m ∧ m.bytes.byte (x.base + k - m.base) = x.bytes k := by
  have ledger := plain.keeps.ledger
  obtain ⟨y, same, shows, -⟩ := plain.mirrors.shown o member
  cases held.symm.trans same
  rw [← shows.template] at writable inside
  rw [← shows.base]
  have holds := o.holds_of_offset k (ledger.sound o member) inside
  have byte := shows.bytes writable k inside
  rw [Managed.view, if_pos present] at byte
  exact ⟨o.mapping, (mapping_at_iff w _ o.mapping ledger).mpr ⟨o, member, holds, rfl⟩, by rw [Nat.add_sub_cancel_left, byte]⟩

theorem plain_stored (o : Managed) (x : PlainObject) (k : Nat) (b : UInt8) (plain : Plain settings w s)
    (member : o ∈ w.pager.objects) (held : s.memory o.id = some x) (inside : k < x.template.shape.size)
    (present : o.mapping.isPresent k = true) :
    Plain settings
      (w.modifyMapping (x.base + k) fun m => { m with bytes := m.bytes.setByte (x.base + k - m.base) b })
      (s.put o.id (some (x.store k b))) := by
  have ledger := plain.keeps.ledger
  obtain ⟨y, same, shows, -⟩ := plain.mirrors.shown o member
  cases held.symm.trans same
  rw [← shows.template] at inside
  rw [← shows.base]
  have holds := o.holds_of_offset k (ledger.sound o member) inside
  have found := (mapping_at_iff w _ o.mapping ledger).mpr ⟨o, member, holds, rfl⟩
  have keeps := store_keeps w (o.mapping.base + k) o.mapping b settings plain.keeps found
    (by rw [Nat.add_sub_cancel_left]; exact present)
  have changed := modify_mapping_eq w o (o.mapping.base + k)
    (fun m => { m with bytes := m.bytes.setByte (o.mapping.base + k - m.base) b }) ledger member holds
  rw [changed] at keeps ⊢
  rw [Nat.add_sub_cancel_left] at keeps ⊢
  refine ⟨⟨plain.idle.station, plain.idle.queue, plain.idle.silent, plain.idle.isOpen, plain.idle.patient⟩, keeps, ?_, ?_⟩
  · exact aligned_lasts w.pager _ plain.aligned
      (lasts_revised w.pager o _ (o.withByte k b) ledger.ids member ⟨rfl, rfl, rfl, rfl, rfl⟩ rfl)
  · exact mirrors_stored w.pager s _ o x k b plain.mirrors member held present rfl rfl

theorem read_one (address : Nat) :
    w.read host address 1 = (((w.touch host address).mappingAt? address).elim #[]
      fun m => #[m.bytes.byte (address - m.base)], w.touch host address) := by
  simp only [read, Nat.add_zero]
  cases (w.touch host address).mappingAt? address <;> rfl

theorem plain_of_run (run : PlainRun settings w s) : Plain settings w s := by
  induction run with
  | started w start => exact plain_started settings w start
  | called host orderly yields w s request value before fresh serving ih =>
      exact plain_called host settings w s orderly yields request value ih fresh serving
  | read host yields w s id x k before held inside undisturbed ih =>
      rw [read_one]
      exact (plain_touched host settings w s yields id x k ih held inside undisturbed).1
  | written host yields w s id x k b before held inside undisturbed ih =>
      obtain ⟨plain, o, member, rfl, present⟩ := plain_touched host settings w s yields id x k ih held inside undisturbed
      exact plain_stored settings _ _ o x k b plain member held inside present

end

-- Every read of an object that is not read-only returns what the plain memory holds: what was last written there since the
-- object was allocated or, in the body, reset, else what the filler writes, else zero.
theorem reads_plain (host : Host) (yields : host.Yields) (settings : Settings) (w : Worker) (s : Shadow) (id : ObjectId)
    (x : PlainObject) (k : Nat) (run : PlainRun settings w s) (held : s.memory id = some x)
    (writable : x.template.readOnly = false) (inside : k < x.template.shape.size)
    (undisturbed : Undisturbed host w s (x.base + k)) : (w.read host (x.base + k) 1).1 = #[x.bytes k] := by
  have plain := plain_of_run settings w s run
  obtain ⟨touched, o, member, rfl, present⟩ := plain_touched host settings w s yields id x k plain held inside undisturbed
  obtain ⟨m, found, byte⟩ := load_plain settings _ _ o x k touched member held writable inside present
  rw [read_one, found, Option.elim, byte]

end Worker

end DemandPaging

namespace DemandPaging.Worker

attribute [local instance] Platform.small

theorem reads_restored_byte : ∃ w s, PlainRun .threePages w s ∧ w.pager.counters.writebacks = 1 ∧
    ¬ w.pager.Resident ⟨1⟩ 0 ∧ (w.read (Host.plain []) (65536 + 1) 1).1 = #[7] := by
  have orderly := Host.plain_orderly []
  have yields := Host.plain_yields []
  have granted : (first.call (Host.plain []) (.allocate ⟨1⟩ (.fourPages 4))).1 = .granted ⟨65536, 32⟩ := by decide +kernel
  have fresh : ∀ id template, Request.allocate ⟨1⟩ (.fourPages 4) = .allocate id template →
      Shadow.empty.memory id = none ∧ template.Fills fun _ => 1 := by
    intro id template same
    cases same
    refine ⟨rfl, fun filler i calls byte given _ filled k _ => ?_⟩
    cases given
    simp only at filled
    split at filled
    · cases filled
      rfl
    · cases filled
  have called := PlainRun.called _ orderly yields _ _ (.allocate ⟨1⟩ (.fourPages 4)) (fun _ => 1)
    (.started _ start_first) fresh (by decide +kernel)
  rw [granted] at called
  have written := PlainRun.written _ yields _ _ ⟨1⟩ (.fresh 65536 (.fourPages 4) fun _ => 1) 1 7 called rfl (by decide)
    (by decide +kernel)
  have second := PlainRun.read _ yields _ _ ⟨1⟩ _ 8 written rfl (by decide) (by decide +kernel)
  have third := PlainRun.read _ yields _ _ ⟨1⟩ _ 16 second rfl (by decide) (by decide +kernel)
  have fourth := PlainRun.read _ yields _ _ ⟨1⟩ _ 24 third rfl (by decide) (by decide +kernel)
  exact ⟨_, _, fourth, by decide +kernel, by decide +kernel,
    reads_plain _ yields .threePages _ _ ⟨1⟩ _ 1 fourth rfl rfl (by decide) (by decide +kernel)⟩

end DemandPaging.Worker
