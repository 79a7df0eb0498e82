import DemandPaging.Proofs.ChunkHistory

set_option autoImplicit false

namespace DemandPaging

variable [Platform]

def Pager.writesBack (host : Host) (p : Pager) (address : Nat) (id : ObjectId) (i : Nat) : Bool :=
  match (Pager.resolve host address).run p with
  | .ok _ q => (q.journal.take (q.journal.length - p.journal.length)).contains (.reclaimed id i true)
  | .error _ _ => false

-- The bytes that a chunk had at the fault that last had it written back.
def copy? (id : ObjectId) (i : Nat) : List Deed → Option Bytes
  | [] => none
  | .served _ :: older => copy? id i older
  | .faulted host p address :: older =>
    if p.writesBack host address id i then (p.object? id).map fun o => o.contents i else copy? id i older

theorem Managed.saved_bytes_eq_iff (o : Managed) (i : Nat) (s : SwapStore) (bytes : Bytes) :
    o.savedBytes i s = bytes ↔ bytes.size = (o.shape.piece i).fillLen ∧
      ∀ j, j < (o.shape.piece i).fillLen → s.payload ((o.shape.piece i).bodyOffset + j) = bytes.getD j 0 := by
  simp only [savedBytes, SparseBytes.slice_eq_iff, SwapStore.payload, Nat.add_assoc]

namespace Pager

def Copied (past : List Deed) (p : Pager) : Prop :=
  ∀ o ∈ p.objects, ∀ s, o.swap = some s → ∀ i, i < o.shape.chunks → s.saved i = true →
    copy? o.id i past = some (o.savedBytes i s)

section

variable (past next : List Deed) (p q : Pager)

theorem copied_same (copied : Copied past p) (same : ∀ id i, copy? id i next = copy? id i past)
    (stores : ∀ later ∈ q.objects, ∃ o ∈ p.objects, later.id = o.id ∧ later.template = o.template ∧ later.swap = o.swap) :
    Copied next q := by
  intro later laterMember s store i inside saved
  obtain ⟨o, member, id, template, swap⟩ := stores later laterMember
  have shape : later.shape = o.shape := by rw [Managed.shape, template]
  have bytes : later.savedBytes i s = o.savedBytes i s := by rw [Managed.savedBytes, Managed.savedBytes, shape]
  rw [same, id, bytes]
  exact copied o member s (swap ▸ store) i (shape ▸ inside) saved

theorem copied_revised (o later : Managed) (copied : Copied past p) (member : o ∈ p.objects)
    (same : later.id = o.id ∧ later.template = o.template ∧ later.swap = o.swap)
    (objects : q.objects = revised p.objects later) : Copied past q := by
  refine copied_same past past p q copied (fun _ _ => rfl) fun x xMember => ?_
  rw [objects, mem_revised p.objects later x (same.1 ▸ List.mem_map_of_mem member)] at xMember
  rcases xMember with rfl | ⟨old, -⟩
  · exact ⟨o, member, same⟩
  · exact ⟨x, old, rfl, rfl, rfl⟩

theorem mem_reclaims_iff (o : Managed) (taken : List Residency) (i : Nat) (ledger : Ledger p) (member : o ∈ p.objects) :
    Event.reclaimed o.id i true ∈ p.reclaims taken ↔ o.Saves taken i := by
  simp only [reclaims, List.mem_map, List.mem_filter, decide_eq_true_eq, Event.reclaimed.injEq, Managed.Saves,
    Residency.Holds]
  constructor
  · rintro ⟨r, ⟨inTaken, positive⟩, owner, chunk, saves⟩
    exact ⟨r, inTaken, ⟨positive, owner, chunk⟩, (saves_iff p ledger o r member owner).mp saves⟩
  · rintro ⟨r, inTaken, ⟨positive, owner, chunk⟩, changed⟩
    exact ⟨r, ⟨inTaken, positive⟩, owner, chunk, (saves_iff p ledger o r member owner).mpr changed⟩

theorem copied_passed (host : Host) (address : Nat) (taken : List Residency) (ledger : Ledger p) (copied : Copied past p)
    (passed : Passed p.noticed taken q)
    (writes : ∀ id i, p.writesBack host address id i = true ↔ Event.reclaimed id i true ∈ p.reclaims taken) :
    Copied (.faulted host p address :: past) q := by
  intro later laterMember s store i inside saved
  have listed : later.id ∈ p.objects.map Managed.id := passed.ids ▸ List.mem_map_of_mem laterMember
  obtain ⟨o, member, id⟩ := List.mem_map.mp listed
  have relinquished := passed.objects o member later laterMember id.symm
  have shape : later.shape = o.shape := by rw [Managed.shape, o.template_relinquished later taken relinquished]
  have chunk : i < o.shape.chunks := shape ▸ inside
  have given : o.swap.isSome = true := by rw [← relinquished.stores, store, Option.isSome_some]
  obtain ⟨before, earlier⟩ := Option.isSome_iff_exists.mp given
  have keeps := relinquished.kept before s earlier store
  have written := (writes o.id i).trans (mem_reclaims_iff p o taken i ledger member)
  rw [← id, copy?]
  by_cases saves : o.Saves taken i
  · rw [if_pos (written.mpr saves), (object_some_iff p o o.id ledger.ids).mpr ⟨member, rfl⟩, Option.map_some]
    refine congrArg some ((later.saved_bytes_eq_iff i s _).mpr ⟨shape ▸ o.size_contents i, fun j within => ?_⟩).symm
    rw [shape] at within ⊢
    obtain ⟨body, own⟩ := o.shape.piece_byte i j chunk within
    rw [keeps.written _ body (own.symm ▸ saves), ← Nat.add_assoc]
    exact (SparseBytes.getD_slice _ _ _ j within 0).symm
  · have old : before.saved i = true := ((keeps.saved i chunk).mp saved).resolve_right saves
    rw [if_neg fun given => saves (written.mp given), copied o member before earlier i chunk old]
    refine congrArg some ((later.saved_bytes_eq_iff i s _).mpr ⟨?_, fun j within => ?_⟩).symm
    · rw [shape]
      exact SparseBytes.size_slice _ _ _
    · rw [shape] at within ⊢
      obtain ⟨body, own⟩ := o.shape.piece_byte i j chunk within
      rw [keeps.unwritten _ body (own.symm ▸ saves)]
      exact ((o.saved_bytes_eq_iff i before _).mp rfl).2 j within

end

theorem passed_of_room (p roomy : Pager) (incoming : Nat) (ledger : Ledger p) (storeless : p.Storeless)
    (room : MadeRoom p incoming roomy) : ∃ taken, Passed p taken roomy :=
  passed_turns p roomy ledger storeless (turns_of_room p roomy incoming room)

structure Dropped (roomy q : Pager) (e : Event) : Prop where
  journal : q.journal = e :: roomy.journal
  objects : ∀ later ∈ q.objects, ∃ x ∈ roomy.objects, later = { x with calls := later.calls }
  records : q.queue.toList = roomy.queue.toList
  resident : q.resident = roomy.resident

-- What an answered fault leaves of the pager that room was made in: one entry says where the bytes of the chunk came from,
-- its copy if it has one. They come in unless the chunk is there.
structure Entered (roomy q : Pager) (o now : Managed) (i : Nat) (e : Event) : Prop where
  stores : ∀ later ∈ q.objects, ∃ x ∈ roomy.objects, later.id = x.id ∧ later.template = x.template ∧ later.swap = x.swap
  source : (now.isSaved i = false ∧ e = .filling (o.template.call o.id i)) ∨
    ∃ s, now.swap = some s ∧ s.saved i = true ∧ e = .restored o.id i ∧
      (¬ roomy.Resident o.id i → ∃ later ∈ q.objects, later.id = o.id ∧ later.contents i = now.savedBytes i s)
  dropped : roomy.Resident o.id i → Dropped roomy q e
  installed : ¬ roomy.Resident o.id i → q.journal = .installed o.id i :: e :: roomy.journal

section

variable (roomy q supplied : Pager) (o now : Managed) (i : Nat) (bytes : Bytes)

theorem same_but_calls (member : now ∈ roomy.objects)
    (sourced : Sourced roomy now i bytes supplied) :
    ∀ x ∈ supplied.objects, ∃ y ∈ roomy.objects, x = { y with calls := x.calls } := by
  cases sourced with
  | restored s staging store saved => exact fun x xMember => ⟨x, xMember, rfl⟩
  | filled filler byte old staging unsaved given made size =>
      have listed : now.id ∈ roomy.objects.map Managed.id := List.mem_map_of_mem member
      intro x xMember
      rcases (mem_revised roomy.objects { now with calls := now.calls + 1 } x listed).mp xMember with rfl | ⟨old, -⟩
      · exact ⟨now, member, rfl⟩
      · exact ⟨x, old, rfl⟩

theorem entry_of_sourced (becomes : o.Becomes now) (sourced : Sourced roomy now i bytes supplied) :
    ∃ e, supplied.journal = e :: roomy.journal ∧
      ((now.isSaved i = false ∧ e = .filling (o.template.call o.id i)) ∨
        ∃ s, now.swap = some s ∧ s.saved i = true ∧ e = .restored o.id i ∧ bytes = now.savedBytes i s) := by
  cases sourced with
  | restored s staging store saved => exact ⟨_, rfl, .inr ⟨s, store, saved, by rw [becomes.id], rfl⟩⟩
  | filled filler byte old staging unsaved given made size =>
      exact ⟨_, rfl, .inl ⟨unsaved, by rw [becomes.id, becomes.template]⟩⟩

end

section

variable (settings : Settings) (past : List Deed) (p q roomy : Pager) (o now : Managed) (i : Nat) (inside : i < o.shape.chunks)
  (answered : Answered settings past p o i q roomy now)

include inside answered

theorem entered_answered : ∃ e, Entered roomy q o now i e := by
  obtain ⟨-, told, member, becomes, calls, bytes, supplied, sourced, there, installed⟩ := answered
  have ledger := told.ledger
  have size := sourced_size roomy now i supplied bytes sourced
  have chunk : i < now.shape.chunks := o.becomes_shape now becomes ▸ inside
  obtain ⟨suppliedLedger, sameQueue, sameResident, -, -⟩ := ledger_sourced roomy now i bytes supplied ledger member sourced
  obtain ⟨e, journal, source⟩ := entry_of_sourced roomy supplied o now i bytes becomes sourced
  have before := same_but_calls roomy supplied now i bytes member sourced
  have stores : ∀ x ∈ supplied.objects, ∃ y ∈ roomy.objects, x.id = y.id ∧ x.template = y.template ∧ x.swap = y.swap := by
    intro x xMember
    obtain ⟨y, yMember, same⟩ := before x xMember
    rw [same]
    exact ⟨y, yMember, rfl, rfl, rfl⟩
  have same : roomy.Resident o.id i ↔ supplied.Resident now.id i := by
    rw [Resident, Resident, live, live, sameQueue, becomes.id]
  cases installed with
  | present queue wf records resident =>
      refine ⟨e, stores, ?_, fun _ => ⟨journal, before, records.trans (congrArg _ sameQueue), sameResident⟩, ?_⟩
      · refine source.imp_right fun restored => ?_
        obtain ⟨s, store, saved, entry, -⟩ := restored
        exact ⟨s, store, saved, entry, fun absent => absurd (same.mpr resident) absent⟩
      · exact fun absent => absurd (same.mpr resident) absent
  | fresh queue wf records absent =>
      have known : ({ now with calls } : Managed).id ∈ supplied.objects.map Managed.id := List.mem_map_of_mem there
      have members := fun x => mem_revised supplied.objects (({ now with calls } : Managed).withChunk i bytes) x known
      have lacks := lacks_of_not_resident supplied { now with calls } i suppliedLedger there chunk absent
      have contents := ({ now with calls } : Managed).contents_with_chunk i bytes chunk lacks size
      refine ⟨e, fun later laterMember => ?_, ?_, fun resident => absurd (same.mp resident) absent, fun _ => ?_⟩
      · rcases (members later).mp laterMember with rfl | ⟨old, -⟩
        · exact ⟨now, member, rfl, rfl, rfl⟩
        · exact stores later old
      · refine source.imp_right fun restored => ?_
        obtain ⟨s, store, saved, entry, copy⟩ := restored
        exact ⟨s, store, saved, entry, fun _ => ⟨_, (members _).mpr (.inl rfl), becomes.id, copy ▸ contents⟩⟩
      · rw [← becomes.id, ← journal]
        rfl

end

theorem writes_back_iff (host : Host) (p q : Pager) (address : Nat) (taken : List Residency) (news : List Event)
    (run : (resolve host address).run p = .ok () q) (journal : q.journal = news ++ ((p.reclaims taken).reverse ++ p.journal))
    (id : ObjectId) (i : Nat) (apart : .reclaimed id i true ∉ news) :
    p.writesBack host address id i = true ↔ Event.reclaimed id i true ∈ p.reclaims taken := by
  have last : q.journal.take (q.journal.length - p.journal.length) = news ++ (p.reclaims taken).reverse := by
    rw [journal, ← List.append_assoc, List.length_append, Nat.add_sub_cancel, List.take_left]
  simp only [writesBack, run, last, List.contains_iff_mem, List.mem_append, List.mem_reverse]
  exact or_iff_right apart

section

variable (settings : Settings) (past : List Deed) (host : Host) (p q : Pager) (address : Nat) (told : Told settings past p)

include told

theorem journal_answered (o now : Managed) (i : Nat) (roomy : Pager) (inside : i < o.shape.chunks)
    (answered : Answered settings past p o i q roomy now) :
    ∃ taken news, Passed p.noticed taken roomy ∧ roomy.journal = (p.reclaims taken).reverse ++ p.journal ∧
      q.journal = news ++ ((p.reclaims taken).reverse ++ p.journal) ∧ ∀ id j saved, .reclaimed id j saved ∉ news := by
  have noticed := noticed_told settings past p told
  obtain ⟨taken, passed⟩ := passed_of_room p.noticed roomy _ noticed.ledger noticed.storeless answered.room
  have journal : roomy.journal = (p.reclaims taken).reverse ++ p.journal := passed.journal
  obtain ⟨e, entered⟩ := entered_answered settings past p q roomy o now i inside answered
  have kind : ∀ id j saved, e ≠ .reclaimed id j saved := by
    obtain ⟨-, rfl⟩ | ⟨s, -, -, rfl, -⟩ := entered.source <;> exact fun _ _ _ impossible => by cases impossible
  by_cases resident : roomy.Resident o.id i
  · refine ⟨taken, [e], passed, journal, journal ▸ (entered.dropped resident).journal, fun id j saved listed => ?_⟩
    exact kind id j saved (List.mem_singleton.mp listed).symm
  · refine ⟨taken, [.installed o.id i, e], passed, journal, journal ▸ entered.installed resident, fun id j saved listed => ?_⟩
    rcases List.mem_cons.mp listed with impossible | last
    · cases impossible
    · exact kind id j saved (List.mem_singleton.mp last).symm

theorem copied_answered (o now : Managed) (i : Nat) (roomy : Pager) (inside : i < o.shape.chunks) (copied : Copied past p)
    (run : (resolve host address).run p = .ok () q) (answered : Answered settings past p o i q roomy now) :
    Copied (.faulted host p address :: past) roomy ∧ Copied (.faulted host p address :: past) q := by
  obtain ⟨taken, news, passed, -, journal, others⟩ := journal_answered settings past p q told o now i roomy inside answered
  have pass := copied_passed past p roomy host address taken told.ledger copied passed fun id j =>
    writes_back_iff host p q address taken news run journal id j (others id j true)
  obtain ⟨e, entered⟩ := entered_answered settings past p q roomy o now i inside answered
  exact ⟨pass, copied_same _ _ roomy q pass (fun _ _ => rfl) entered.stores⟩

omit told

theorem copied_noticed (copied : Copied past p) (run : (resolve host address).run p = .ok () p.noticed) :
    Copied (.faulted host p address :: past) p.noticed := by
  have unwritten : ∀ id i, p.writesBack host address id i = false := by
    intro id i
    have same : p.noticed.journal.length = p.journal.length := rfl
    simp only [writesBack, run, same, Nat.sub_self, List.take_zero]
    rfl
  refine copied_same past _ p p.noticed copied (fun id i => ?_) fun later member => ⟨later, member, rfl, rfl, rfl⟩
  rw [copy?, unwritten, if_neg Bool.false_ne_true]

end

theorem copied_of_story (settings : Settings) (past : List Deed) (p : Pager) (story : Story settings past p) :
    Copied past p := by
  induction story with
  | started p start =>
      intro o member
      rw [objects_start settings p start] at member
      cases member
  | served host past p q request reply before fresh serves ih =>
      have ledger := (told_of_story settings past p before).ledger
      have later : ∀ id i, copy? id i (.served request :: past) = copy? id i past := fun _ _ => rfl
      cases serves with
      | allocated id template grant q allocated =>
          obtain ⟨base, swap, index, placed, sound, listed, affordable, opens⟩ := allocated
          intro x xMember s store i inside saved
          rcases List.mem_cons.mp xMember with rfl | old
          · rw [(opens.sound s store).2 i] at saved
            cases saved
          · exact ih x (List.mem_filter.mp old).1 s store i inside saved
      | freed o index member sound removed =>
          exact copied_same past _ p _ ih later fun x xMember => ⟨x, (List.mem_filter.mp xMember).1, rfl, rfl, rfl⟩
      | emptied o member =>
          have known : o.id ∈ p.objects.map Managed.id := List.mem_map_of_mem member
          intro x xMember s store i inside saved
          rcases (mem_revised p.objects (cleared o) x known).mp xMember with rfl | ⟨old, -⟩
          · have unsaved := o.unsaved_cleared i (ledger.sound o member) inside
            rw [Managed.isSaved, store, Option.any_some, saved] at unsaved
            cases unsaved
          · exact ih x old s store i inside saved
      | refused request failure => exact ih
  | faulted host past p q address before run ledger resolved ih =>
      have told := told_of_story settings past p before
      obtain ⟨rfl, -⟩ | ⟨o, member, k, inside, -, roomy, now, answered⟩ :=
        answered_of_resolved settings past p q address told resolved
      · exact copied_noticed past host p address ih run
      · exact (copied_answered settings past host p q address told o now _ roomy (o.shape.chunk_of_offset_lt k inside) ih run
          answered).2
  | stored past p o offset b before member present ih =>
      exact copied_revised past p _ o (o.withByte offset b) ih member ⟨rfl, rfl, rfl⟩ rfl

end Pager

end DemandPaging
