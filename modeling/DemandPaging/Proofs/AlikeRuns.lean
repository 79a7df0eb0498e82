import DemandPaging.Proofs.AlikeStores
import DemandPaging.Proofs.Retiring
import DemandPaging.Proofs.WorkerSteps

set_option autoImplicit false

namespace DemandPaging

variable [Platform]

theorem Managed.cleared_alike (o x : Managed) (alike : o.Alike x) :
    (Pager.cleared o).Alike (Pager.cleared x) := by
  refine ⟨?_, ?_, fun s t store other => ?_⟩
  · have rest := alike.rest
    generalize x.swap = swap at rest
    subst rest
    rfl
  · rw [Pager.cleared, Pager.cleared, Option.isSome_map, Option.isSome_map, alike.stores]
  · obtain ⟨a, before, rfl⟩ := Option.map_eq_some_iff.mp store
    obtain ⟨b, otherBefore, rfl⟩ := Option.map_eq_some_iff.mp other
    have both := alike.alike a b before otherBefore
    refine SwapStore.alike_of_unsaved o.shape _ _ (a.clear_dirty_sound o.shape both.first)
      (b.clear_dirty_sound o.shape both.second) both.span (fun i inside => ?_) fun i inside => ?_
    · exact a.clear_dirty_saved o.shape i both.first (both.first.chunks ▸ inside)
    · exact b.clear_dirty_saved o.shape i both.second (both.second.chunks ▸ inside)

namespace Pager

section

variable (p q : Pager) (alike : p.Alike q)

include alike

theorem revised_alike (later twin : Managed) (own : later.Alike twin) :
    ({ p with objects := revised p.objects later } : Pager).Alike { q with objects := revised q.objects twin } := by
  refine map_objects_alike p q alike _ _ fun o x each => ?_
  rw [(o.alike_becomes x each).id, (later.alike_becomes twin own).id]
  split
  · exact own
  · exact each

theorem save_changed_alike (o x : Managed) (own : o.Alike x) (r : Residency) (s t : SwapStore)
    (stopped : Pager → Pager → Prop) (ids : (p.objects.map Managed.id).Nodup) (member : o ∈ p.objects) (other : x ∈ q.objects)
    (sound : o.Sound) (of : r.Of o) (store : o.swap = some s) (otherStore : x.swap = some t) :
    Pairs (saveChanged o s (o.shape.headerPadded + (o.shape.piece r.chunk).bodyOffset) r)
      (saveChanged x t (o.shape.headerPadded + (o.shape.piece r.chunk).bodyOffset) r) p q (fun _ => Alike) stopped := by
  have becomes := o.alike_becomes x own
  have shape := o.becomes_shape x becomes
  have contents : x.contents r.chunk = o.contents r.chunk := o.alike_same x own (fun y => y.contents r.chunk) fun _ => rfl
  have first := save_changed_ensures p o r s ids member sound of store
  have second := save_changed_ensures q x r t (ids_alike p q alike ▸ ids) other (o.alike_sound x own sound)
    (r.of_becomes o x becomes of) otherStore
  rw [shape, contents] at second
  refine pairs_of_ensures _ _ p q _ stopped _ _ first second fun saved otherSaved p' q' left right => ?_
  obtain ⟨rfl, same, rfl⟩ | ⟨rfl, changed, marked, takes, rfl⟩ := left
  · obtain ⟨rfl, -, rfl⟩ | ⟨-, changed, -⟩ := right
    · exact ⟨rfl, alike⟩
    · exact absurd same changed
  · obtain ⟨-, same, -⟩ | ⟨rfl, -, otherMarked, otherTakes, rfl⟩ := right
    · exact absurd same changed
    · have both := revised_alike p q alike _ _
        (o.stored_alike x own r.chunk of.chunk _ (o.size_contents r.chunk) s t marked otherMarked store otherStore takes
          otherTakes)
      refine ⟨rfl, ?_, both.objects⟩
      rw [alike.rest]

end

section

variable (p q : Pager) (alike : p.Alike q)

theorem alikes_release (host : Host) (r : Residency) (mapping : Mapping) (offset : Nat) (saved : Bool) : Agrees Alike (do
    let released ← attempt (mapping.release host offset r.len)
    modify (·.modifyObject r.owner fun o => { o with mapping := released })
    giveBack r.len
    count fun c => { c with reclaims := c.reclaims + 1 }
    setResident (← get).resident
    record (.reclaimed r.owner r.chunk saved)) := by
  refine agrees_bind _ _ _ (agrees_attempt _ _) fun released => ?_
  refine agrees_bind _ _ _ (alikes_put_mapping r.owner released) fun _ => ?_
  refine agrees_bind _ _ _ (alikes_give_back r.len) fun _ => ?_
  refine agrees_bind _ _ _ (alikes_count _) fun _ => ?_
  refine agrees_read _ Pager.resident (fun n => do setResident n; record (.reclaimed r.owner r.chunk saved))
    (fun p q alike => read_alike p q alike Pager.resident fun _ => rfl) fun n => ?_
  exact agrees_bind _ _ _ (alikes_set_resident n) fun _ => alikes_record _

include alike

theorem reclaim_alike (host : Host) (o : Managed) (r : Residency) (ids : (p.objects.map Managed.id).Nodup)
    (member : o ∈ p.objects) (sound : o.Sound) (of : r.Of o) (enough : r.len ≤ p.resident) :
    Pairs (reclaim host r) (reclaim host r) p q (fun _ p' q' => p'.Alike q' ∧
      ∃ saved later, o.Evicted r saved later ∧ p' = p.relieved r saved later) Alike := by
  refine pairs_ensures _ _ _ _ _ _ _ _ ?_ (reclaim_ensures p o r host ids member sound of enough)
  have tracked : p.object? r.owner = some o := (object_some_iff p o r.owner ids).mpr ⟨member, of.owner.symm⟩
  have offset : r.address - o.mapping.base = o.shape.headerPadded + (o.shape.piece r.chunk).bodyOffset := by
    rw [of.address, Nat.add_sub_cancel_left]
  rcases object_alike p q alike r.owner with ⟨missing, -⟩ | ⟨first, x, found, otherFound, own⟩
  · rw [tracked] at missing
    cases missing
  · obtain rfl : first = o := Option.some.inj (found.symm.trans tracked)
    have other := ((object_some_iff q x r.owner (ids_alike p q alike ▸ ids)).mp otherFound).1
    have mapping : x.mapping = first.mapping := first.alike_same x own Managed.mapping fun _ => rfl
    rw [reclaim]
    apply pairs_get
    rw [found, otherFound]
    simp only [mapping, offset]
    refine pairs_ite _ _ _ _ _ _ _ _ _ (fun _ => pairs_breach _ _ _ _ _ alike) fun _ => ?_
    have stores := own.stores
    cases store : first.swap with
    | none =>
        rw [store, Option.isSome_none, Option.isSome_eq_false_iff, Option.isNone_iff_eq_none] at stores
        rw [stores]
        exact agrees_bind _ _ _ (agrees_pure _ false) (alikes_release host r first.mapping _) p q alike
    | some s =>
        rw [store] at stores
        obtain ⟨t, otherStore⟩ := Option.isSome_iff_exists.mp stores
        rw [otherStore]
        exact pairs_bind _ _ _ _ _ _ _ _ _
          (save_changed_alike p q alike first x own r s t Alike ids member other sound of store otherStore)
          fun saved => alikes_release host r first.mapping _ saved

end

theorem evict_alike (host : Host) (incoming records : Nat) (p q : Pager) (alike : p.Alike q) (ledger : Ledger p) :
    Pairs (evict host incoming records) (evict host incoming records) p q (fun _ => Alike) Alike := by
  induction records generalizing p q with
  | zero =>
      rw [evict]
      apply pairs_get
      rw [read_alike p q alike Pager.resident fun _ => rfl, read_alike p q alike Pager.settings fun _ => rfl]
      refine agrees_bind _ _ _ (agrees_word _ _) (fun total => ?_) p q alike
      exact agrees_ite _ _ _ _ (agrees_fail _ _) (agrees_pure _ ())
  | succ records ih =>
      rw [evict]
      apply pairs_get
      rw [read_alike p q alike Pager.resident fun _ => rfl, read_alike p q alike Pager.settings fun _ => rfl,
        read_alike p q alike Pager.queue fun _ => rfl]
      refine pairs_bind _ _ _ _ _ _ _ _ (fun _ p' q' => p'.Alike q') (agrees_word _ _ p q alike) fun total p' q' alike' => ?_
      refine pairs_ite _ _ _ _ _ _ _ _ _ (fun above => ?_) fun _ => pairs_pure _ _ _ _ _ alike'
      cases popped : p.queue.pop with
      | none => exact pairs_fail _ _ _ _ _ alike'
      | some front =>
          obtain ⟨oldest, rest⟩ := front
          obtain ⟨wf, front, -⟩ := pop_front p.queue rest oldest ledger.queue popped
          have out : ({ p with queue := rest } : Pager).Alike
              { q with queue := rest, settings := p.settings, resident := p.resident } := ⟨by rw [alike.rest], alike.objects⟩
          refine pairs_bind _ _ _ _ _ _ _ _ (fun _ p' q' => p' = { p with queue := rest } ∧ p'.Alike q')
            (pairs_set _ _ _ _ _ _ ⟨rfl, out⟩) fun _ p' q' outAlike => ?_
          obtain ⟨rfl, outAlike⟩ := outAlike
          refine pairs_ite _ _ _ _ _ _ _ _ _ (fun positive => ?_) fun retired => ?_
          · have isLive : oldest ∈ p.live := by
              rw [live_pop p oldest rest front positive]
              exact List.mem_cons_self
            obtain ⟨o, member, of⟩ := ledger.owned oldest isLive
            have enough : oldest.len ≤ p.resident := by
              rw [← ledger.total, queued_pop p oldest rest front]
              omega
            refine pairs_bind _ _ _ _ _ _ _ _ _
              (reclaim_alike _ q' outAlike host o oldest ledger.ids member (ledger.sound o member) of enough)
              fun _ p' q' given => ?_
            obtain ⟨relieved, saved, later, evicted, rfl⟩ := given
            exact ih _ q' relieved (ledger_relieved p o oldest rest saved later ledger wf front member of evicted)
          · exact ih _ q' outAlike (ledger_retired p oldest rest ledger wf front (by omega))

theorem make_room_alike (host : Host) (incoming : Nat) (p q : Pager) (alike : p.Alike q) (ledger : Ledger p) :
    Pairs (makeRoom host incoming) (makeRoom host incoming) p q (fun _ p' q' => p'.Alike q' ∧ MadeRoom p incoming p') Alike := by
  refine pairs_ensures _ _ _ _ _ _ _ _ ?_ (make_room_ensures host p incoming ledger)
  rw [makeRoom]
  apply pairs_get
  have queue : q.queue = p.queue := read_alike p q alike Pager.queue fun _ => rfl
  rw [read_alike p q alike Pager.resident fun _ => rfl, read_alike p q alike Pager.settings fun _ => rfl, queue]
  refine pairs_bind _ _ _ _ _ _ _ _ (fun _ p' q' => p' = p ∧ p'.Alike q')
    (pairs_word p q _ _ _ (fun _ _ => ⟨rfl, alike⟩) alike) fun total p' q' given => ?_
  obtain ⟨rfl, alike'⟩ := given
  exact pairs_ite _ _ _ _ _ _ _ _ _ (fun above => evict_alike host incoming _ p' q' alike' ledger) fun _ =>
    pairs_pure _ _ _ _ _ alike'

section

variable (host : Host) (p q : Pager) (alike : p.Alike q) (ledger : Ledger p)

include alike

theorem noticed_alike : p.noticed.Alike q.noticed := modify_rest_alike p q alike noticed (fun _ _ => rfl) fun _ => rfl

include ledger

theorem bring_in_alike (o : Managed) (i : Nat) (member : o ∈ p.objects) (inside : i < o.shape.chunks) :
    Pairs (bringIn host o i) (bringIn host o i) p.noticed q.noticed (fun _ => Alike) Alike := by
  rw [bringIn]
  refine pairs_bind _ _ _ _ _ _ _ _ _ (make_room_alike host _ p.noticed q.noticed (noticed_alike p q alike)
    (ledger_noticed p ledger)) fun _ roomy other given => ?_
  obtain ⟨both, made⟩ := given
  obtain ⟨roomyLedger, now, nowMember, becomes, -, -⟩ := roomy_ready p o i roomy ledger member made
  have shape := o.becomes_shape now becomes
  have found : roomy.object? o.id = some now :=
    (object_some_iff roomy now o.id roomyLedger.ids).mpr ⟨nowMember, becomes.id⟩
  rw [supply]
  apply pairs_get
  rcases object_alike roomy other both o.id with ⟨missing, -⟩ | ⟨first, x, firstFound, otherFound, own⟩
  · rw [found] at missing
    cases missing
  · obtain rfl : first = now := Option.some.inj (firstFound.symm.trans found)
    have same := source_chunk_alike first x i own (shape ▸ inside)
    rw [shape] at same
    rw [firstFound, otherFound]
    simp only [same]
    exact agrees_bind _ _ _ (alikes_source_chunk first _) (fun bytes => alikes_install_chunk host _ _ _ _ bytes) roomy other both

theorem resolve_alike (address : Nat) : Pairs (resolve host address) (resolve host address) p q (fun _ => Alike) Alike := by
  have after := ledger_alike p q alike ledger
  have index : q.index = p.index := read_alike p q alike Pager.index fun _ => rfl
  have noticed := noticed_alike p q alike
  cases found : p.index.find? address with
  | none =>
      refine pairs_of_runs _ _ _ _ _ _ (fail (.unknownFaultAddress address)) (fail (.unknownFaultAddress address)) p.noticed
        q.noticed ?_ ?_ (pairs_fail _ _ _ _ _ noticed)
      · exact run_eq_of_ensures _ _ _ _ fun ok stopped => ensures_resolve_nowhere host p address ok stopped found
      · exact run_eq_of_ensures _ _ _ _ fun ok stopped => ensures_resolve_nowhere host q address ok stopped (index ▸ found)
  | some e =>
      obtain ⟨o, member, rfl, holds⟩ := (find_iff p address e ledger.toCatalogue).mp found
      obtain ⟨x, xMember, own⟩ := mem_alike_of p q alike o member
      have becomes := o.alike_becomes x own
      have shape := o.becomes_shape x becomes
      have low : o.mapping.base ≤ address := holds.1
      have total : address < o.mapping.base + o.shape.size := (ledger.sound o member).len ▸ holds.2
      by_cases header : address - o.mapping.base < o.shape.headerPadded
      · refine pairs_of_runs _ _ _ _ _ _ (ask host (.zero ⟨address, Page.size⟩)) (ask host (.zero ⟨address, Page.size⟩))
          p.noticed q.noticed ?_ ?_ (alikes_ask host _ _ _ noticed)
        · refine run_eq_of_ensures _ _ _ _ fun ok stopped => ?_
          rw [ensures_resolve_header host p address o ok stopped ledger member holds header, ensures_ask]
          rfl
        · refine run_eq_of_ensures _ _ _ _ fun ok stopped => ?_
          rw [ensures_resolve_header host q address x ok stopped after xMember ?_ ?_, ensures_ask]
          · rfl
          · rw [o.becomes_entry x becomes]
            exact holds
          · rw [becomes.base, shape]
            exact header
      · obtain ⟨k, place⟩ : ∃ k, address = o.mapping.base + (o.shape.headerPadded + k) :=
          ⟨address - o.mapping.base - o.shape.headerPadded, by omega⟩
        have inside : k < o.shape.bodyReserved := by
          rw [place, Shape.size] at total
          omega
        have same : bringIn host x (k / o.shape.chunkLen) = bringIn host o (k / o.shape.chunkLen) :=
          o.alike_same x own (fun y => bringIn host y (k / o.shape.chunkLen)) fun _ => rfl
        refine pairs_of_runs _ _ _ _ _ _ _ _ p.noticed q.noticed ?_ ?_
          (bring_in_alike host p q alike ledger o _ member (o.shape.chunk_of_offset_lt k inside))
        · exact run_eq_of_ensures _ _ _ _ fun ok stopped =>
            ensures_resolve_body host p address o k ok stopped ledger member inside place
        · rw [← same, ← shape]
          refine run_eq_of_ensures _ _ _ _ fun ok stopped =>
            ensures_resolve_body host q address x k ok stopped after xMember (shape ▸ inside) ?_
          rw [becomes.base, shape]
          exact place

omit ledger

theorem emptied_alike (o x : Managed) (own : o.Alike x) : (p.emptied o).Alike (q.emptied x) := by
  have both := revised_alike p q alike (cleared o) (cleared x) (o.cleared_alike x own)
  refine ⟨?_, both.objects⟩
  rw [emptied, emptied, (o.alike_becomes x own).id, alike.rest]
  rfl

include ledger

theorem reset_alike (releases : host.Releases) (id : ObjectId) :
    Pairs (reset host id) (reset host id) p q (fun _ => Alike) Alike := by
  have after := ledger_alike p q alike ledger
  rcases object_alike p q alike id with ⟨first, second⟩ | ⟨o, x, first, second, own⟩
  · exact pairs_of_runs _ _ _ _ _ _ (fail (.unknownObject id.number)) (fail (.unknownObject id.number)) p q
      (reset_unknown_run p id host first) (reset_unknown_run q id host second) (pairs_fail _ _ _ _ _ alike)
  · obtain ⟨member, rfl⟩ := (object_some_iff p o id ledger.ids).mp first
    obtain ⟨xMember, number⟩ := (object_some_iff q x o.id after.ids).mp second
    have left := reset_run p host releases o ledger member
    have right := reset_run q host releases x after xMember
    rw [number] at right
    exact pairs_of_runs _ _ _ _ _ _ (pure ()) (pure ()) _ _ left right
      (pairs_pure _ _ _ _ _ (emptied_alike p q alike o x own))

omit ledger

theorem filter_objects_alike (id : ObjectId) : ({ p with objects := p.objects.filter fun o => o.id ≠ id } : Pager).Alike
    { q with objects := q.objects.filter fun o => o.id ≠ id } := by
  refine ⟨by rw [alike.rest], List.rel_filter (fun o x own => ?_) alike.objects⟩
  simp only [(o.alike_becomes x own).id]

end

theorem alikes_retire (id : ObjectId) : Agrees Alike (retire id) := by
  intro p q alike
  rw [retire]
  apply pairs_get
  rw [read_alike p q alike Pager.queue fun _ => rfl, read_alike p q alike Pager.resident fun _ => rfl]
  refine pairs_bind _ _ _ _ _ _ _ _ (fun _ => Alike) (pairs_set _ _ _ _ _ _ ?_) fun _ => ?_
  · exact ⟨by rw [alike.rest], alike.objects⟩
  · exact agrees_ite _ _ _ _ (agrees_breach _ _) (agrees_pure _ ())

theorem free_alike (p q : Pager) (alike : p.Alike q) (id : ObjectId) :
    Pairs (free id) (free id) p q (fun _ => Alike) Alike := by
  rw [free]
  apply pairs_get
  rw [read_alike p q alike Pager.index fun _ => rfl]
  rcases object_alike p q alike id with ⟨first, second⟩ | ⟨o, x, first, second, own⟩
  · rw [first, second]
    exact pairs_fail _ _ _ _ _ alike
  · have mapping : x.mapping = o.mapping := o.alike_same x own Managed.mapping fun _ => rfl
    rw [first, second]
    simp only [mapping]
    refine pairs_bind _ _ _ _ _ _ _ _ (fun _ => Alike) (pairs_set _ _ _ _ _ _ ?_) fun _ => ?_
    · have left := filter_objects_alike p q alike id
      exact ⟨by rw [alike.rest], left.objects⟩
    · refine agrees_bind _ _ _ (alikes_modify _ (fun _ _ => rfl) fun _ => rfl) fun _ => ?_
      cases p.index.remove o.mapping.base with
      | error why => exact agrees_breach _ _
      | ok removed =>
          refine agrees_bind _ _ _ (alikes_modify _ (fun _ _ => rfl) fun _ => rfl) fun _ => ?_
          refine agrees_bind _ _ _ (alikes_retire id) fun _ => ?_
          refine agrees_read _ (fun p => (p.resident, p.objects.length))
            (fun n => do setResident n.1; count fun c => c.setLive n.2; checkTotals) (fun p q alike => ?_) fun n => ?_
          · rw [read_alike p q alike Pager.resident fun _ => rfl, alike.objects.length_eq]
          · refine agrees_bind _ _ _ (alikes_set_resident n.1) fun _ => ?_
            exact agrees_bind _ _ _ (alikes_count _) fun _ => alikes_check_totals

theorem alikes_add (new : Managed) (grant : Grant) (stores : ∀ s, new.swap = some s → s.Sound new.shape) : Agrees Alike (do
    modify fun p => { p with objects := new :: p.objects.filter fun o => o.id ≠ new.id }
    let p ← get
    count fun c => c.setLive p.objects.length
    pure grant) := by
  refine agrees_bind _ _ _ (agrees_modify _ _ fun p q alike => ?_) fun _ => ?_
  · have left := filter_objects_alike p q alike new.id
    exact ⟨by rw [alike.rest], .cons (new.alike_refl stores) left.objects⟩
  · refine agrees_read _ (fun p => p.objects.length) (fun n => do count fun c => c.setLive n; pure grant) (fun p q alike => ?_)
      fun n => ?_
    · exact alike.objects.length_eq.symm
    · exact agrees_bind _ _ _ (alikes_count _) fun _ => agrees_pure _ grant

theorem alikes_open_swap (host : Host) (template : Template) (used : List Span) :
    Agrees Alike (openSwap host template used) := by
  rw [openSwap]
  refine agrees_ite _ _ _ _ (agrees_pure _ none) ?_
  intro p q alike
  apply pairs_get
  rw [read_alike p q alike Pager.settings fun _ => rfl]
  exact agrees_bind _ _ _ (agrees_lift _ _) (fun s => agrees_pure _ (some s)) p q alike

theorem alikes_enter (id : ObjectId) (mapping : Mapping) : Agrees Alike (enter id mapping) := by
  intro p q alike
  rw [enter]
  apply pairs_get
  rw [read_alike p q alike Pager.index fun _ => rfl]
  cases p.index.insert mapping.base mapping.len id with
  | error why => exact pairs_breach _ _ _ _ _ alike
  | ok index =>
      refine pairs_ite _ _ _ _ _ _ _ _ _ (fun _ => pairs_set _ _ _ _ _ _ ?_) fun _ => pairs_throw _ _ _ _ _ alike
      exact ⟨by rw [alike.rest], alike.objects⟩

theorem alikes_check_first_chunk (layout : Layout) : Agrees Alike (checkFirstChunk layout) := by
  intro p q alike
  rw [checkFirstChunk]
  apply pairs_get
  rw [read_alike p q alike Pager.settings fun _ => rfl]
  refine agrees_ite _ _ _ _ ?_ (agrees_pure _ ()) p q alike
  refine agrees_bind _ _ _ (agrees_word _ _) fun first => ?_
  exact agrees_ite _ _ _ _ (agrees_fail _ _) (agrees_pure _ ())

theorem alikes_unwatch (s : Span) : Agrees Alike (unwatch s) := alikes_modify _ (fun _ _ => rfl) fun _ => rfl

theorem alikes_watch (host : Host) (s : Span) : Agrees Alike (watch host s) := by
  rw [watch]
  refine agrees_bind _ _ _ (alikes_ask host _) fun _ => ?_
  refine agrees_bind _ _ _ (alikes_modify _ (fun _ _ => rfl) fun _ => rfl) fun _ => ?_
  refine agrees_ite _ _ _ _ ?_ (agrees_pure _ ())
  exact agrees_bind _ _ _ (alikes_unwatch s) fun _ => agrees_fail _ _

theorem alikes_zero_header (host : Host) (base : Nat) (layout : Layout) : Agrees Alike (zeroHeader host base layout) :=
  agrees_ite _ _ _ _ (alikes_ask host _) (agrees_pure _ ())

theorem allocate_alike (p q : Pager) (alike : p.Alike q) (host : Host) (id : ObjectId) (template : Template) :
    Pairs (allocate host id template) (allocate host id template) p q (fun _ => Alike) Alike := by
  rw [allocate]
  refine agrees_bind _ _ _ (alikes_check_first_chunk _) (fun _ => ?_) p q alike
  refine agrees_bind _ _ _ (agrees_word _ _) fun size => ?_
  intro p q alike
  apply pairs_get
  rw [spans_alike p q alike]
  refine agrees_bind _ _ _ (agrees_attempt _ _) (fun fresh => ?_) p q alike
  refine agrees_bind _ _ _ (alikes_watch host fresh.span) fun _ => ?_
  intro p' q' alike'
  refine pairs_bind _ _ _ _ _ _ _ _ (fun swap p q => p.Alike q ∧ ∀ s, swap = some s → s.Sound template.shape) ?_
    fun swap p'' q'' given => ?_
  · refine pairs_try_catch _ _ _ _ _ _ _ _ Alike ?_ fun halt => ?_
    · refine pairs_bind _ _ _ _ _ _ _ _ _ (alikes_zero_header host fresh.base _ p' q' alike') fun _ p q zeroed => ?_
      refine pairs_bind _ _ _ _ _ _ _ _ _ (pairs_ensures _ _ _ _ _ _ _ _ (alikes_open_swap host template _ p q zeroed)
        (open_swap_ensures p host template _)) fun swap p q given => ?_
      obtain ⟨both, -, opened⟩ := given
      refine pairs_bind _ _ _ _ _ _ _ _ _ (alikes_enter id _ p q both) fun _ p q entered => ?_
      exact pairs_pure _ _ _ _ _ ⟨entered, fun s same => ((opens_of_opened host template _ _ swap opened).sound s same).1⟩
    · intro p q both
      refine pairs_bind _ _ _ _ _ _ _ _ (fun _ => Alike) (alikes_unwatch fresh.span p q both) fun _ p q both => ?_
      exact pairs_throw _ _ _ _ _ both
  · exact alikes_add ⟨id, _, template.layout, template, swap, 0⟩ _ given.2 p'' q'' given.1

theorem teardown_alike (p q : Pager) (alike : p.Alike q) (failed : Bool) : q.teardown failed = p.teardown failed := by
  have mappings := map_alike p q alike Managed.mapping fun o x own => o.alike_same x own Managed.mapping fun _ => rfl
  simp only [teardown, mappings]
  rw [alike.rest]

theorem work_alike (host : Host) (releases : host.Releases) (request : Request) (x : M Reply) (work : work? host request = some x)
    (p q : Pager)
    (alike : p.Alike q) (ledger : Ledger p) : Pairs x x p q (fun _ => Alike) Alike := by
  have replied : ∀ {α : Type} (step : M α) (f : α → Reply), Pairs step step p q (fun _ => Alike) Alike →
      Pairs (step >>= fun a => pure (f a)) (step >>= fun a => pure (f a)) p q (fun _ => Alike) Alike := by
    intro α step f pairs
    exact pairs_bind _ _ _ _ _ _ _ _ _ pairs fun a p' q' alike => pairs_pure _ _ _ _ (f a) alike
  cases request with
  | allocate id template =>
      cases work
      exact replied _ _ (allocate_alike p q alike host id template)
  | free id =>
      cases work
      exact replied _ _ (free_alike p q alike id)
  | reset id =>
      cases work
      exact replied _ _ (reset_alike host p q alike ledger releases id)
  | shutdown => cases work

end Pager

namespace Worker

open Pager

-- The worker is the same, or it serves and differs in nothing but what stores hold of chunks that are not saved.
inductive Alike (w : Worker) : Worker → Prop where
  | same : Alike w w
  | apart (q : Pager) (serving : w.Serving) (alike : w.pager.Alike q) : Alike w { w with pager := q }

section

variable (w : Worker) (q : Pager) (serving : w.Serving)

include serving

theorem conclude_alike (ticket : Nat) (x : M Reply) (pairs : Pairs x x w.pager q (fun _ => Pager.Alike) Pager.Alike) :
    (w.conclude ticket (x.run w.pager)).Alike (({ w with pager := q } : Worker).conclude ticket (x.run q)) := by
  rcases pairs_cases x x w.pager q _ _ pairs with ⟨reply, p', q', left, right, alike⟩ | ⟨halt, p', q', left, right, alike⟩
  · rw [left, right]
    exact .apart q' serving alike
  · rw [left, right]
    cases halt with
    | failed failure =>
        simp only [conclude]
        by_cases ends : endsWorker failure = true
        · rw [if_pos ends, if_pos ends, finish, finish, teardown_alike p' q' alike]
          exact .same
        · rw [if_neg ends, if_neg ends]
          exact .apart q' serving alike
    | _ =>
        simp only [conclude, crash]
        rw [alike.rest]
        exact .same

variable (alike : w.pager.Alike q)

include alike

omit serving in
theorem finish_alike (outcome : Outcome) : ({ w with pager := q } : Worker).finish outcome = w.finish outcome := by
  simp only [finish, teardown_alike w.pager q alike]

theorem idle_alike (waited : Waited) : (w.idle waited).Alike (({ w with pager := q } : Worker).idle waited) := by
  cases waited with
  | timedOut => exact .apart q serving alike
  | interrupted =>
      simp only [idle, read_alike w.pager q alike Pager.settings fun _ => rfl]
      by_cases many : w.pager.settings.maxInterrupts < w.interrupts + 1
      · rw [if_pos many, if_pos many, finish_alike w q alike]
        exact .same
      · rw [if_neg many, if_neg many]
        exact .apart q serving alike
  | failed cause =>
      simp only [idle, finish_alike w q alike]
      exact .same

variable (ledger : Ledger w.pager)

include ledger

theorem serve_alike (host : Host) (releases : host.Releases) (ticket : Nat) (request : Request) :
    (w.serve host ticket request).Alike (({ w with pager := q } : Worker).serve host ticket request) := by
  cases request with
  | shutdown =>
      simp only [serve, finish_alike { w with mailbox := w.mailbox.drop ticket } q alike]
      exact .same
  | allocate id template =>
      exact conclude_alike w q serving ticket _ (work_alike host releases (.allocate id template) _ rfl w.pager q alike ledger)
  | free id => exact conclude_alike w q serving ticket _ (work_alike host releases (.free id) _ rfl w.pager q alike ledger)
  | reset id => exact conclude_alike w q serving ticket _ (work_alike host releases (.reset id) _ rfl w.pager q alike ledger)

theorem advance_alike (host : Host) (releases : host.Releases) :
    (w.advance host).Alike (({ w with pager := q } : Worker).advance host) := by
  obtain ⟨p, mailbox, station, interrupts⟩ := w
  cases station with
  | waiting =>
      simp only [advance]
      by_cases rung : mailbox.bell.isRung = true
      · rw [if_pos rung, if_pos rung]
        exact .apart q trivial alike
      · have settings : q.settings = p.settings := read_alike p q alike Pager.settings fun _ => rfl
        rw [if_neg rung, if_neg rung, settings]
        exact idle_alike ⟨p, mailbox, .waiting, interrupts⟩ q trivial alike _
  | woken => exact .apart q trivial alike
  | serving =>
      simp only [advance]
      cases mailbox.next with
      | none => exact .apart q trivial alike
      | some front =>
          obtain ⟨ticket, request, rest⟩ := front
          exact serve_alike ⟨p, rest, .serving, interrupts⟩ q trivial alike ledger host releases ticket request
  | _ => exact serving.elim

theorem fault_alike (host : Host) (address : Nat) :
    (w.fault host address).Alike (({ w with pager := q } : Worker).fault host address) := by
  have pairs := resolve_alike host w.pager q alike ledger (address / Page.size * Page.size)
  rcases pairs_cases _ _ w.pager q _ _ pairs with ⟨_, p', q', left, right, after⟩ | ⟨halt, p', q', left, right, after⟩
  · simp only [fault, left, right]
    exact .apart q' serving after
  · simp only [fault, left, right]
    cases halt with
    | failed failure =>
        simp only [finish, teardown_alike p' q' after]
        exact .same
    | _ =>
        simp only [crash]
        rw [after.rest]
        exact .same

omit ledger

theorem modify_mapping_alike (address : Nat) (f : Mapping → Mapping) :
    (w.modifyMapping address f).Alike (({ w with pager := q } : Worker).modifyMapping address f) := by
  refine .apart _ serving ?_
  have objects := map_objects_alike w.pager q alike _ _ fun o x own =>
    o.alike_apart x own (fun y => { y with mapping := if y.mapping.holds address then f y.mapping else y.mapping })
      (fun _ _ => rfl) (fun _ => rfl) fun _ => rfl
  exact modify_rest_alike _ _ objects
    (fun p => { p with remains := p.remains.map fun m => if m.holds address then f m else m }) (fun _ _ => rfl) fun _ => rfl

end

theorem shown_alike (w v : Worker) (alike : w.Alike v) :
    v.mailbox = w.mailbox ∧ v.station = w.station ∧ v.mappings = w.mappings := by
  cases alike with
  | same => exact ⟨rfl, rfl, rfl⟩
  | apart q serving alike =>
      have remains := read_alike w.pager q alike Pager.remains fun _ => rfl
      refine ⟨rfl, rfl, ?_⟩
      rw [mappings, mappings, remains]
      rw [map_alike w.pager q alike Managed.mapping fun o x own => o.alike_same x own Managed.mapping fun _ => rfl]

inductive Together (w v : Worker) : Worker → Worker → Prop where
  | started : Together w v w v
  | sent (w' v' : Worker) (request : Request) (before : Together w v w' v') :
      Together w v (w'.send request).2 (v'.send request).2
  | advanced (host : Host) (releases : host.Releases) (w' v' : Worker) (before : Together w v w' v')
      (fresh : ∀ ticket id template mailbox, w'.mailbox.next = some (ticket, .allocate id template, mailbox) →
        ∀ o ∈ w'.pager.objects, o.id ≠ id) : Together w v (w'.advance host) (v'.advance host)
  | faulted (host : Host) (w' v' : Worker) (address : Nat) (before : Together w v w' v') :
      Together w v (w'.fault host address) (v'.fault host address)
  | stored (w' v' : Worker) (address : Nat) (m : Mapping) (b : UInt8) (before : Together w v w' v')
      (found : w'.mappingAt? address = some m) (present : m.isPresent (address - m.base) = true) :
      Together w v (w'.modifyMapping address fun m => { m with bytes := m.bytes.setByte (address - m.base) b })
        (v'.modifyMapping address fun m => { m with bytes := m.bytes.setByte (address - m.base) b })

theorem alike_of_together (settings : Settings) (w v w' v' : Worker) (keeps : Keeps settings w.pager) (alike : w.Alike v)
    (together : Together w v w' v') : (w'.Serving → Keeps settings w'.pager) ∧ w'.Alike v' := by
  induction together with
  | started => exact ⟨fun _ => keeps, alike⟩
  | sent w' v' request before ih =>
      obtain ⟨kept, alike'⟩ := ih
      refine ⟨kept, ?_⟩
      cases alike' with
      | same => exact .same
      | apart q serving own => exact .apart q serving own
  | advanced host releases w' v' before fresh ih =>
      obtain ⟨kept, alike'⟩ := ih
      refine ⟨fun serving => advance_keeps host releases w' settings kept fresh serving, ?_⟩
      cases alike' with
      | same => exact .same
      | apart q serving own => exact advance_alike w' q serving own (kept serving).ledger host releases
  | faulted host w' v' address before ih =>
      obtain ⟨kept, alike'⟩ := ih
      refine ⟨fun serving => fault_keeps host w' address settings (kept (fault_serving host w' address serving)) serving, ?_⟩
      cases alike' with
      | same => exact .same
      | apart q serving own => exact fault_alike w' q serving own (kept serving).ledger host address
  | stored w' v' address m b before found present ih =>
      obtain ⟨kept, alike'⟩ := ih
      refine ⟨fun serving => store_keeps w' address m b settings (kept serving) found present, ?_⟩
      cases alike' with
      | same => exact .same
      | apart q serving own => exact modify_mapping_alike w' q serving own address _

end Worker

end DemandPaging
