import DemandPaging.Proofs.ChunkHistory

set_option autoImplicit false

namespace DemandPaging

-- The place of the latest entry that says that the chunk came in, counted from the oldest entry; zero if there is none.
def born (key : ChunkKey) : List Event → Nat
  | [] => 0
  | e :: older => if e = .installed key.1 key.2 then older.length + 1 else born key older

-- For each entry that gave a chunk back, newest first, the place where that chunk had come in.
def reclaimedBirths : List Event → List Nat
  | [] => []
  | .reclaimed id i _ :: older => born (id, i) older :: reclaimedBirths older
  | .filling _ :: older => reclaimedBirths older
  | .restored _ _ :: older => reclaimedBirths older
  | .installed _ _ :: older => reclaimedBirths older
  | .reset _ :: older => reclaimedBirths older

theorem born_le (key : ChunkKey) (journal : List Event) : born key journal ≤ journal.length := by
  induction journal with
  | nil => exact Nat.le_refl 0
  | cons e older ih =>
      rw [born]
      split
      · exact Nat.le_refl _
      · exact Nat.le_succ_of_le ih

theorem reclaimed_births_le (journal : List Event) : ∀ n ∈ reclaimedBirths journal, n ≤ journal.length := by
  induction journal with
  | nil => exact fun n impossible => by cases impossible
  | cons e older ih =>
      have old : ∀ n ∈ reclaimedBirths older, n ≤ (e :: older).length := fun n given => Nat.le_succ_of_le (ih n given)
      cases e with
      | reclaimed id i saved =>
          intro n given
          rcases List.mem_cons.mp given with rfl | earlier
          · exact Nat.le_succ_of_le (born_le (id, i) older)
          · exact old n earlier
      | _ => exact old

namespace Account

structure InOrder (a : Account) : Prop where
  brought : ∀ key ∈ a.resident, 0 < born key a.journal
  rising : a.resident.Pairwise fun first second => born first a.journal < born second a.journal
  behind : ∀ n ∈ reclaimedBirths a.journal, ∀ key ∈ a.resident, n < born key a.journal
  falling : (reclaimedBirths a.journal).Pairwise fun later earlier => earlier < later
  known : ∀ n ∈ reclaimedBirths a.journal, 0 < n

section

variable (a b : Account) (ordered : InOrder a)

include ordered

theorem in_order_fewer (resident : b.resident.Sublist a.resident)
    (births : ∀ key, born key b.journal = born key a.journal)
    (reclaims : reclaimedBirths b.journal = reclaimedBirths a.journal) : InOrder b := by
  refine ⟨fun key member => ?_, ?_, ?_, ?_, ?_⟩
  · rw [births]
    exact ordered.brought key (resident.subset member)
  · simp only [births]
    exact ordered.rising.sublist resident
  · intro n given key member
    rw [births]
    exact ordered.behind n (reclaims ▸ given) key (resident.subset member)
  · rw [reclaims]
    exact ordered.falling
  · rw [reclaims]
    exact ordered.known

theorem in_order_installed (key : ChunkKey) (absent : key ∉ a.resident) :
    InOrder { a with resident := a.resident ++ [key], journal := .installed key.1 key.2 :: a.journal } := by
  have own : born key (.installed key.1 key.2 :: a.journal) = a.journal.length + 1 := by rw [born, if_pos rfl]
  have others : ∀ other ∈ a.resident, born other (.installed key.1 key.2 :: a.journal) = born other a.journal := by
    intro other member
    rw [born, if_neg]
    intro same
    injection same with id i
    exact absent (Prod.ext id i ▸ member)
  have youngest : ∀ other, born other a.journal < born key (.installed key.1 key.2 :: a.journal) := fun other =>
    own ▸ Nat.lt_succ_of_le (born_le other a.journal)
  refine ⟨fun other member => ?_, ?_, fun n given other member => ?_, ?_, ?_⟩
  · rcases List.mem_append.mp member with old | new
    · exact others other old ▸ ordered.brought other old
    · rw [List.mem_singleton.mp new]
      exact Nat.zero_lt_of_lt (youngest key)
  · refine List.pairwise_append.mpr ⟨?_, List.pairwise_singleton _ key, fun first old second new => ?_⟩
    · refine ordered.rising.imp_of_mem fun {first second} firstMember secondMember less => ?_
      rwa [others first firstMember, others second secondMember]
    · rw [others first old, List.mem_singleton.mp new]
      exact youngest first
  · rcases List.mem_append.mp member with old | new
    · exact others other old ▸ ordered.behind n given other old
    · rw [List.mem_singleton.mp new, own]
      exact Nat.lt_succ_of_le (reclaimed_births_le a.journal n given)
  · exact ordered.falling
  · exact ordered.known

theorem in_order_reclaimed (id : ObjectId) (i : Nat) (rest : List ChunkKey) (saved : Bool) (savedChunks : Set ChunkKey)
    (front : a.resident = (id, i) :: rest) :
    InOrder
      { a with resident := rest, saved := savedChunks, journal := .reclaimed id i saved :: a.journal } := by
  have births : ∀ key, born key (.reclaimed id i saved :: a.journal) = born key a.journal := fun key => by
    rw [born, if_neg (by rintro ⟨⟩)]
  have there : (id, i) ∈ a.resident := front ▸ List.mem_cons_self
  have stays : ∀ key ∈ rest, key ∈ a.resident := fun key member => front ▸ List.mem_cons_of_mem _ member
  have rising := ordered.rising
  rw [front, List.pairwise_cons] at rising
  refine ⟨fun key member => ?_, ?_, fun n given key member => ?_, ?_, fun n given => ?_⟩
  · rw [births]
    exact ordered.brought key (stays key member)
  · simp only [births]
    exact rising.2
  · rw [births]
    rcases List.mem_cons.mp given with rfl | earlier
    · exact rising.1 key member
    · exact ordered.behind n earlier key (stays key member)
  · exact List.pairwise_cons.mpr ⟨fun n earlier => ordered.behind n earlier _ there, ordered.falling⟩
  · rcases List.mem_cons.mp given with rfl | earlier
    · exact ordered.brought _ there
    · exact ordered.known n earlier

end

theorem in_order_empty : InOrder empty := by
  constructor <;> simp [empty, reclaimedBirths]

end Account

structure FirstInFirstOut (journal : List Event) : Prop where
  known : ∀ n ∈ reclaimedBirths journal, 0 < n
  falling : (reclaimedBirths journal).Pairwise fun later earlier => earlier < later

variable [Platform]

namespace Account

section

variable (a b : Account) (ordered : InOrder a) (templates : ObjectId → Option Template)

include ordered

theorem in_order_noted (id : ObjectId) (i : Nat) (e : Event) (supplies : Supplies templates a id i e) :
    InOrder { a with journal := e :: a.journal } := by
  refine in_order_fewer a _ ordered (List.Sublist.refl _) (fun key => if_neg ?_) ?_
  · cases supplies <;> exact fun impossible => by cases impossible
  · cases supplies <;> rfl

theorem in_order_happens (happens : Happens templates a b) : InOrder b := by
  cases happens with
  | appeared id t known fresh => exact in_order_fewer a _ ordered (List.Sublist.refl _) (fun _ => rfl) rfl
  | vanished id => exact in_order_fewer a _ ordered List.filter_sublist (fun _ => rfl) rfl
  | emptied id there =>
      refine in_order_fewer a _ ordered List.filter_sublist (fun key => ?_) rfl
      exact if_neg (by rintro ⟨⟩)
  | dropped id i e there present supplies => exact in_order_noted a ordered templates id i e supplies
  | brought id i e there absent supplies =>
      exact in_order_installed _ (in_order_noted a ordered templates id i e supplies) (id, i) absent
  | reclaimed id i rest saved t there known writable front once =>
      exact in_order_reclaimed a ordered id i rest saved _ front

theorem in_order_comes (comes : Comes templates a b) : InOrder b := by
  induction comes with
  | refl => exact ordered
  | tail _ last ih => exact in_order_happens _ _ ih templates last

end

end Account

namespace Pager

open Account

-- No eviction makes room for the chunk of the address: there is none without one, and the low mark is too low for the chunk.
def Overtaxes (settings : Settings) (p : Pager) (address : Nat) : Prop :=
  ∃ o ∈ p.objects, ∃ k, k < o.shape.bodyReserved ∧ address = o.mapping.base + (o.shape.headerPadded + k) ∧
    settings.high < p.resident + (o.shape.piece (k / o.shape.chunkLen)).fillLen ∧
    p.resident + (o.shape.piece (k / o.shape.chunkLen)).fillLen < Word.limit ∧
    settings.low < (o.shape.piece (k / o.shape.chunkLen)).fillLen

-- The bytes of the chunk of the address and those that are resident can be counted together.
def Counts (p : Pager) (address : Nat) : Prop :=
  ∀ o ∈ p.objects, ∀ k, k < o.shape.bodyReserved → address = o.mapping.base + (o.shape.headerPadded + k) →
    p.resident + (o.shape.piece (k / o.shape.chunkLen)).fillLen < Word.limit

theorem not_overtaxed_of_room (p q : Pager) (incoming : Nat) (made : MadeRoom p incoming q) :
    ¬ (p.settings.high < p.resident + incoming ∧ p.settings.low < incoming) := by
  cases made with
  | enough room => omega
  | passed q above pass room => omega

section

variable (settings : Settings) (past : List Deed) (host : Host) (p q : Pager) (address : Nat) (told : Told settings past p)

include told

theorem not_overtaxed_header (o : Managed) (member : o ∈ p.objects) (low : o.mapping.base ≤ address)
    (header : address - o.mapping.base < o.shape.headerPadded) : ¬ Overtaxes settings p address := by
  rintro ⟨x, xMember, j, xInside, xPlace, -⟩
  exact header_not_body p address told.ledger.toCatalogue o x j member low header xMember xInside xPlace

theorem not_overtaxed_answered (o : Managed) (k : Nat) (roomy : Pager) (member : o ∈ p.objects)
    (inside : k < o.shape.bodyReserved) (place : address = o.mapping.base + (o.shape.headerPadded + k))
    (room : MadeRoom p.noticed (o.shape.piece (k / o.shape.chunkLen)).fillLen roomy) : ¬ Overtaxes settings p address := by
  rintro ⟨x, xMember, j, xInside, xPlace, above, -, large⟩
  obtain ⟨rfl, rfl⟩ := place_unique p address told.ledger.toCatalogue o x k j member xMember inside xInside place xPlace
  rw [← told.settings] at above large
  exact not_overtaxed_of_room p.noticed roomy _ room ⟨above, large⟩

theorem not_overtaxed_excess (o : Managed) (k : Nat) (member : o ∈ p.objects)
    (inside : k < o.shape.bodyReserved) (place : address = o.mapping.base + (o.shape.headerPadded + k))
    (excess : ¬ p.resident + (o.shape.piece (k / o.shape.chunkLen)).fillLen < Word.limit) :
    ¬ Overtaxes settings p address := by
  rintro ⟨x, xMember, j, xInside, xPlace, -, fits, -⟩
  obtain ⟨rfl, rfl⟩ := place_unique p address told.ledger.toCatalogue o x k j member xMember inside xInside place xPlace
  exact excess fits

theorem exhausted_iff_overtaxes (releases : host.Releases) (halt : Halt) (stops : FaultStops host p address halt q) :
    (∃ needed resident low, Worker.told halt = .budgetExhausted needed resident low) ↔ Overtaxes settings p address := by
  have spares : ∀ other : Failure, other.SparesBudget →
      ¬ ∃ needed resident low, other = .budgetExhausted needed resident low := by
    rintro other spared ⟨needed, resident, low, same⟩
    exact spared needed resident low same
  cases stops with
  | nowhere none =>
      refine iff_of_false (spares _ fun _ _ _ impossible => by cases impossible) ?_
      rintro ⟨x, xMember, j, xInside, xPlace, -⟩
      exact none x xMember (xPlace ▸ x.holds_of_offset _ (told.ledger.sound x xMember) (Nat.add_lt_add_left xInside _))
  | unzeroed o member low header cause refused =>
      exact iff_of_false (spares _ fun _ _ _ impossible => by cases impossible)
        (not_overtaxed_header settings past p address told o member low header)
  | bringIn o k _ q member inside place stops =>
      cases stops with
      | full _ q short =>
          cases short with
          | overflow excess =>
              exact iff_of_false (spares _ fun _ _ _ impossible => by cases impossible)
                (not_overtaxed_excess settings past p address told o k member inside place excess)
          | exhausted q above pass fits large nothing =>
              exact iff_of_true ⟨_, _, _, rfl⟩
                ⟨o, member, k, inside, place, told.settings ▸ above, fits, told.settings ▸ large⟩
          | stalled _ q stalls =>
              obtain ⟨last, queue, -, unreleased⟩ := stalls
              exact absurd releases unreleased.strict
      | unfilled roomy _ q room failed =>
          refine iff_of_false (spares _ ?_)
            (not_overtaxed_answered settings past p address told o k roomy member inside place room)
          cases failed <;> exact fun _ _ _ impossible => by cases impossible
      | uninstalled now calls bytes roomy supplied _ q room becomes nowMember sourced there failed =>
          refine iff_of_false (spares _ ?_)
            (not_overtaxed_answered settings past p address told o k roomy member inside place room)
          obtain ⟨cause, rfl | rfl⟩ := failed.cause <;> exact fun _ _ _ impossible => by cases impossible
      | uncounted now bytes roomy supplied q room becomes nowMember sourced journal excess =>
          exact iff_of_false (spares _ fun _ _ _ impossible => by cases impossible)
            (not_overtaxed_excess settings past p address told o k member inside place excess)

theorem not_overtaxed_resolved (resolved : Resolved p address q) : ¬ Overtaxes settings p address := by
  obtain ⟨-, o, oMember, low, header⟩ | ⟨o, oMember, k, inside, place, roomy, now, answered⟩ :=
    answered_of_resolved settings past p q address told resolved
  · exact not_overtaxed_header settings past p address told o oMember low header
  · exact not_overtaxed_answered settings past p address told o k roomy oMember inside place answered.room

end

theorem resolved_of_record (settings : Settings) (past : List Deed) (p : Pager) (story : Story settings past p) (host : Host)
    (m : Pager) (address : Nat) (member : .faulted host m address ∈ past) :
    ∃ older q, Story settings older m ∧ Resolved m address q := by
  induction story with
  | started p start => cases member
  | served host past p q request reply before fresh serves ih =>
      rcases List.mem_cons.mp member with impossible | old
      · cases impossible
      · exact ih old
  | faulted host past p q address before run ledger resolved ih =>
      rcases List.mem_cons.mp member with same | old
      · cases same
        exact ⟨past, q, before, resolved⟩
      · exact ih old
  | stored past p o offset b before _ present ih => exact ih member

section

variable (settings : Settings) (past : List Deed) (p : Pager) (story : Story settings past p)

include story

theorem in_order_of_story (templates : ObjectId → Option Template)
    (knows : ∀ id t, template? past id = some t → templates id = some t) : InOrder p.account :=
  in_order_comes _ _ in_order_empty templates (comes_of_story settings past p story templates knows)

theorem first_in_of_stops (host : Host) (releases : host.Releases) (q : Pager) (address : Nat) (halt : Halt)
    (stops : FaultStops host p address halt q) : FirstInFirstOut q.journal := by
  have told := told_of_story settings past p story
  have ordered := in_order_of_story settings past p story (template? past) fun _ _ => id
  have turned : ∀ m, Turns p.noticed m → InOrder m.account := fun m turns =>
    in_order_comes _ _ ordered _
      (comes_turns settings past _ p.noticed m (noticed_told settings past p told) (fun _ _ => id) turns)
  have sourcedOrder : ∀ roomy supplied now i bytes, Turns p.noticed roomy → Sourced roomy now i bytes supplied →
      FirstInFirstOut supplied.journal := by
    intro roomy supplied now i bytes turns sourced
    have after := turned roomy turns
    cases sourced <;> exact ⟨after.known, after.falling⟩
  cases stops with
  | nowhere none => exact ⟨ordered.known, ordered.falling⟩
  | unzeroed o member low header cause refused => exact ⟨ordered.known, ordered.falling⟩
  | bringIn o k _ q member inside place stops =>
      cases stops with
      | full _ q short =>
          cases short with
          | overflow excess => exact ⟨ordered.known, ordered.falling⟩
          | exhausted q above pass fits large nothing =>
              have after := turned q (turns_of_pass _ q _ pass)
              exact ⟨after.known, after.falling⟩
          | stalled _ q stalls =>
              obtain ⟨last, queue, -, unreleased⟩ := stalls
              exact absurd releases unreleased.strict
      | unfilled roomy _ q room failed =>
          have after := turned roomy (turns_of_room _ roomy _ room)
          cases failed with
          | missing q none journal left => exact journal ▸ ⟨after.known, after.falling⟩
          | failed q code fails journal left =>
              rw [journal]
              exact ⟨after.known, after.falling⟩
      | uninstalled now calls bytes roomy supplied _ q room becomes nowMember sourced there failed =>
          have after := sourcedOrder roomy supplied now _ bytes (turns_of_room _ roomy _ room) sourced
          obtain ⟨bytes, queue, -, rfl⟩ := failed.left
          exact after
      | uncounted now bytes roomy supplied q room becomes nowMember sourced journal excess =>
          exact journal ▸ sourcedOrder roomy supplied now _ bytes (turns_of_room _ roomy _ room) sourced

end

end Pager

namespace Worker

open Pager Account

section

variable (settings : Settings) (past : List Deed) (w : Worker) (lived : Lived settings past w)

include lived

theorem first_in_of_lived : FirstInFirstOut w.pager.journal := by
  cases stands_of_lived settings past w lived with
  | serving serving story =>
      have ordered := in_order_of_story settings past w.pager story (template? past) fun _ _ => id
      exact ⟨ordered.known, ordered.falling⟩
  | ended outcome ending objects watched ended =>
      generalize w.pager.journal = journal at ended
      cases ended with
      | waiting past p cause story =>
          have ordered := in_order_of_story settings past p story (template? past) fun _ _ => id
          exact ⟨ordered.known, ordered.falling⟩
      | request past p request outcome story fresh spared =>
          have ordered := in_order_of_story settings past p story (template? (.served request :: past)) fun id t known =>
            template_served past request id t fresh known
          exact ⟨ordered.known, ordered.falling⟩
      | fault host releases past p q address halt story stops =>
          exact first_in_of_stops settings past p story host releases q address halt stops

theorem fault_of_lived (host : Host) (m : Pager) (address : Nat) (member : .faulted host m address ∈ past) :
    ∃ older, Story settings older m ∧ ((∃ q, Resolved m address q) ∨
      ∃ halt q, host.Releases ∧ FaultStops host m address halt q ∧ w.ending? = some (.error (told halt))) := by
  have answered : ∀ older p, Story settings older p → .faulted host m address ∈ older →
      ∃ older, Story settings older m ∧ ((∃ q, Resolved m address q) ∨
        ∃ halt q, host.Releases ∧ FaultStops host m address halt q ∧ w.ending? = some (.error (told halt))) := by
    intro older p story listed
    obtain ⟨earlier, q, before, resolved⟩ := resolved_of_record settings older p story host m address listed
    exact ⟨earlier, before, .inl ⟨q, resolved⟩⟩
  cases stands_of_lived settings past w lived with
  | serving serving story => exact answered past w.pager story member
  | ended outcome ending objects watched ended =>
      generalize w.pager.journal = journal at ended
      cases ended with
      | waiting past p cause story => exact answered past p story member
      | request past p request outcome story fresh spared =>
          rcases List.mem_cons.mp member with impossible | old
          · cases impossible
          · exact answered past p story old
      | fault own releases past p q place halt story stops =>
          rcases List.mem_cons.mp member with same | old
          · cases same
            exact ⟨past, story, .inr ⟨halt, q, releases, stops, ending⟩⟩
          · exact answered past p story old

theorem exhausted_iff_of_lived :
    (∃ needed resident low, w.ending? = some (.error (.budgetExhausted needed resident low))) ↔
      ∃ host p address, .faulted host p address ∈ past ∧ Overtaxes settings p address := by
  constructor
  · rintro ⟨needed, resident, low, exhausted⟩
    cases stands_of_lived settings past w lived with
    | serving serving story => exact absurd serving (not_serving_of_ending w _ exhausted)
    | ended outcome ending objects watched ended =>
        obtain rfl := Option.some.inj (ending.symm.trans exhausted)
        generalize w.pager.journal = journal at ended
        generalize same : (.error (.budgetExhausted needed resident low) : Outcome) = outcome at ended
        cases ended with
        | waiting past p cause story => cases same
        | request past p request outcome story fresh spared => exact absurd rfl (spared _ same.symm needed resident low)
        | fault host releases past p q address halt story stops =>
            have told := told_of_story settings past p story
            have own := exhausted_iff_overtaxes settings past host p q address told releases halt stops
            exact ⟨host, p, address, List.mem_cons_self, own.mp ⟨needed, resident, low, (Except.error.inj same).symm⟩⟩
  · rintro ⟨host, p, address, member, overtaxes⟩
    obtain ⟨older, story, ⟨q, resolved⟩ | ⟨halt, q, releases, stops, ending⟩⟩ :=
      fault_of_lived settings past w lived host p address member
    · have told := told_of_story settings older p story
      exact absurd overtaxes (not_overtaxed_resolved settings older p q address told resolved)
    · have told := told_of_story settings older p story
      obtain ⟨needed, resident, low, same⟩ :=
        (exhausted_iff_overtaxes settings older host p q address told releases halt stops).mpr overtaxes
      exact ⟨needed, resident, low, same ▸ ending⟩

theorem counts_of_lived (host : Host) (m : Pager) (address : Nat) (member : .faulted host m address ∈ past)
    (missing : m.Missing address) : m.Counts address := by
  obtain ⟨older, story, -⟩ := fault_of_lived settings past w lived host m address member
  intro o oMember k inside place
  exact missing_fits m address (told_of_story settings older m story).ledger missing o k oMember inside place

end

-- The shortest run of oldest records goes after which there is room below the low mark. If there is none, all of them go
-- and the pass fails.
theorem evictions_of_runs (settings : Settings) :
    (∀ w, Reachable settings w → w.Serving → ∀ host : Host, host.Releases → ∀ incoming, incoming ≤ settings.high →
      w.pager.resident + incoming < Word.limit →
      (w.pager.resident + incoming ≤ settings.high → (makeRoom host incoming).run w.pager = .ok () w.pager) ∧
      (settings.high < w.pager.resident + incoming → incoming ≤ settings.low →
        ∃ q taken, (makeRoom host incoming).run w.pager = .ok () q ∧ Passed w.pager taken q ∧
          q.resident + incoming ≤ settings.low ∧
          ∀ k, k < taken.length → settings.low < w.pager.resident - bytes (taken.take k) + incoming) ∧
      (settings.high < w.pager.resident + incoming → settings.low < incoming →
        ∃ q, (makeRoom host incoming).run w.pager = .error (.failed (.budgetExhausted incoming 0 settings.low)) q ∧
          Passed w.pager w.pager.queue.toList q ∧ q.resident = 0)) ∧
    ∀ past w, Lived settings past w →
      FirstInFirstOut w.pager.journal ∧
      ((∃ needed resident low, w.ending? = some (.error (.budgetExhausted needed resident low))) ↔
        ∃ host p address, .faulted host p address ∈ past ∧ Overtaxes settings p address) ∧
      ∀ host p address, .faulted host p address ∈ past → p.Missing address → p.Counts address := by
  constructor
  · intro w reachable serving host releases incoming _ fits
    have keeps := keeps_of_reachable settings w reachable serving
    have storeless := storeless_of_reachable settings w reachable serving
    exact keeps.settings ▸ make_room_exact w.pager keeps.ledger storeless host releases incoming fits
  · intro past w lived
    exact ⟨first_in_of_lived settings past w lived, exhausted_iff_of_lived settings past w lived,
      counts_of_lived settings past w lived⟩

end Worker

end DemandPaging

namespace DemandPaging.Worker

open Pager

attribute [local instance] Platform.small

theorem evictions_of_five_faults : (pressed 4).pager.counters.reclaims = 2 ∧ FirstInFirstOut (pressed 4).pager.journal ∧
    ∃ q taken, (makeRoom (Host.plain []) 8).run (pressed 4).pager = .ok () q ∧ Passed (pressed 4).pager taken q ∧
      q.resident + 8 ≤ 16 ∧ ∀ k, k < taken.length → 16 < (pressed 4).pager.resident - bytes (taken.take k) + 8 := by
  obtain ⟨past, lived⟩ := lived_pressed
  obtain ⟨exact, runs⟩ := evictions_of_runs .threePages
  obtain ⟨-, passes, -⟩ := exact _ reachable_pressed (by decide +kernel) (Host.plain []) (Host.plain_yields []).releases 8
    (by decide) (by decide +kernel)
  exact ⟨by decide +kernel, (runs past _ lived).1, passes (by decide +kernel) (by decide)⟩

end DemandPaging.Worker
