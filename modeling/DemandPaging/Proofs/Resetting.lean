import DemandPaging.Proofs.AlikeRuns

set_option autoImplicit false

namespace DemandPaging

theorem PageTable.filter_filter {α : Type} (t : PageTable α) (keep : Nat → Bool) :
    (t.filter keep).filter keep = t.filter keep := by
  induction t generalizing keep with
  | empty => rfl
  | node here odd even first second =>
      simp only [PageTable.filter, first, second]
      cases keep 0 <;> rfl

theorem Residency.retired_again (id : ObjectId) (r : Residency) : (r.retired id).retired id = r.retired id := by
  by_cases own : r.owner = id
  · simp only [Residency.retired, own, if_true]
  · simp only [Residency.retired, own, if_false]

variable [Platform]

theorem SparseBytes.drop_again (m : SparseBytes) (first count : Nat) :
    (m.drop first count).drop first count = m.drop first count :=
  congrArg SparseBytes.mk (PageTable.filter_filter _ _)

structure Managed.Cleared (o later : Managed) : Prop where
  same : later = { o with mapping := { o.mapping with bytes := later.mapping.bytes }, swap := later.swap }
  header : ∀ page, page < o.layout.headerPadded / Page.size → later.mapping.bytes.frame? page = o.mapping.bytes.frame? page
  body : ∀ k, k < o.layout.bodyReserved → later.mapping.isPresent (o.layout.headerPadded + k) = false
  place : (later.swap.map fun s => s.map.span) = o.swap.map fun s => s.map.span
  unsaved : ∀ s, later.swap = some s → s.dirtyCount = 0 ∧ ∀ i, i < s.chunkCount → s.isDirty i = .ok false

namespace Pager

-- The object as it is made, with an empty store where it has its own. It keeps the header that it has, and its filler goes on
-- counting calls.
def renewed (o : Managed) : Managed :=
  let made := freshObject o.id o.template o.mapping.base (o.swap.map fun s => SwapStore.fresh o.shape s.map.base)
  { made with mapping := { made.mapping with bytes := (cleared o).mapping.bytes }, calls := o.calls }

structure Resets (p : Pager) (o : Managed) (q : Pager) : Prop extends Retires p o.id q where
  object : ∃ later, o.Cleared later ∧ q.objects = revised p.objects later
  uncounted : q.counters = { p.counters with residentBytes := q.resident }
  noted : q.journal = .reset o.id :: p.journal
  rest : q.settings = p.settings ∧ q.index = p.index ∧ q.staging = p.staging ∧ q.watched = p.watched ∧ q.remains = p.remains

section

variable (p : Pager) (o : Managed)

theorem cleared_of_sound (sound : o.Sound) : o.Cleared (cleared o) where
  same := rfl
  header page inside := by
    rw [sound.layout] at inside
    simp only [cleared]
    by_cases none : o.shape.bodyReserved = 0
    · rw [if_pos none]
    · rw [if_neg none, SparseBytes.frame?_drop, if_neg]
      exact fun dropped => absurd inside (Nat.not_lt.mpr dropped.1)
  body k inside := by
    rw [sound.layout] at inside ⊢
    exact cleared_has_body o k inside
  place := (cleared_becomes o).store
  unsaved s same := by
    obtain ⟨t, store, rfl⟩ := Option.map_eq_some_iff.mp same
    have whole := sound.store t store
    refine ⟨t.clear_dirty_count o.shape whole, fun i inside => ?_⟩
    rw [t.clearDirty.is_dirty_saved i inside, t.clear_dirty_saved o.shape i whole inside]

theorem resets_of_emptied (ledger : Ledger p) (member : o ∈ p.objects) : Resets p o (p.emptied o) := by
  have peak := ledger.peak.1
  have fewer : (p.retiring o.id).resident ≤ p.counters.peakResidentBytes := Nat.le_trans (Nat.sub_le _ _) peak
  have counters : (p.emptied o).counters = { p.counters with residentBytes := (p.emptied o).resident } :=
    p.counters.set_resident_fewer _ fewer
  exact {
    toRetires := retires_of_retiring p _ o.id ledger rfl rfl (by rw [counters])
    object := ⟨cleared o, cleared_of_sound o (ledger.sound o member), rfl⟩
    uncounted := counters, noted := rfl, rest := ⟨rfl, rfl, rfl, rfl, rfl⟩ }

theorem cleared_again : cleared (cleared o) = cleared o := by
  have store : ∀ s : SwapStore, s.clearDirty.clearDirty = s.clearDirty := fun s => by
    simp only [SwapStore.clearDirty, SparseBytes.drop_again]
  simp only [cleared, Option.map_map, Function.comp_def, store]
  by_cases none : o.shape.bodyReserved = 0
  · simp only [none, if_true]
  · simp only [none, if_false, SparseBytes.drop_again]

theorem cleared_alike_renewed (sound : o.Sound) : (cleared o).Alike (renewed o) := by
  refine ⟨?_, ?_, fun s t store other => ?_⟩
  · obtain ⟨id, ⟨base, len, shared, bytes⟩, layout, template, swap, calls⟩ := o
    obtain rfl : layout = template.layout := sound.layout
    obtain rfl : len = template.shape.size := sound.len
    obtain rfl : shared = false := sound.own
    rfl
  · simp only [cleared, renewed, freshObject, Option.isSome_map]
  · obtain ⟨a, before, rfl⟩ := Option.map_eq_some_iff.mp store
    obtain ⟨b, otherBefore, rfl⟩ := Option.map_eq_some_iff.mp other
    cases before.symm.trans otherBefore
    have whole := sound.store a before
    refine SwapStore.alike_of_unsaved o.shape _ _ (a.clear_dirty_sound o.shape whole) (SwapStore.fresh_sound o.shape a.map.base)
      ?_ (fun i inside => ?_) fun i _ => ?_
    · have len : a.map.len = SwapStore.lengthFor o.shape := by rw [whole.len, whole.bitmap, whole.payload, SwapStore.lengthFor]
      exact congrArg (Span.mk a.map.base) len.symm
    · exact a.clear_dirty_saved o.shape i whole (whole.chunks ▸ inside)
    · exact SwapStore.fresh_saved o.shape a.map.base i

theorem emptied_alike_renewed (ledger : Ledger p) (member : o ∈ p.objects) :
    (p.emptied o).Alike { p.emptied o with objects := revised (p.emptied o).objects (renewed o) } := by
  have after := ledger_emptied p o ledger member
  have revisedAlike := revised_alike _ _ (alike_refl _ after.sound) (cleared o) (renewed o)
    (cleared_alike_renewed o (ledger.sound o member))
  have again : revised (p.emptied o).objects (cleared o) = (p.emptied o).objects :=
    revised_revised p.objects (cleared o) (cleared o) rfl
  rwa [again] at revisedAlike

theorem emptied_again (ledger : Ledger p) :
    (p.emptied o).emptied (cleared o) = { p.emptied o with journal := .reset o.id :: (p.emptied o).journal } := by
  have queue : (p.emptied o).queue.map (Residency.retired o.id) = (p.emptied o).queue := by
    refine CircularQueue.map_fixed _ _ fun r member => ?_
    have list : (p.emptied o).queue.toList = p.queue.toList.map (Residency.retired o.id) :=
      CircularQueue.to_list_map _ _ ledger.queue
    rw [list] at member
    obtain ⟨s, -, rfl⟩ := List.mem_map.mp member
    exact Residency.retired_again o.id s
  have owned : (p.emptied o).ownedBytes o.id = 0 := by
    have live : (p.emptied o).live = p.live.filter fun r => r.owner ≠ o.id := live_retiring p o.id ledger.queue
    rw [ownedBytes, live, List.filter_filter, List.filter_eq_nil_iff.mpr]
    · rfl
    · intro r _
      simp
  have objects : revised (p.emptied o).objects (cleared (cleared o)) = (p.emptied o).objects := by
    rw [cleared_again]
    exact revised_revised p.objects (cleared o) (cleared o) rfl
  have counters : (p.emptied o).counters.setResident (p.emptied o).resident = (p.emptied o).counters := by
    simp only [emptied, Counters.setResident, retiring, Nat.max_assoc, Nat.max_self]
  have number : (cleared o).id = o.id := rfl
  rw [emptied]
  simp only [retiring, number, queue, owned, objects, Nat.sub_zero, counters]

end

end Pager

namespace Worker

open Pager

theorem reset_starts_over (settings : Settings) (w : Worker) (id : ObjectId) (reachable : Reachable settings w)
    (serving : w.Serving) (host : Host) (releases : host.Releases) :
    ((∀ o ∈ w.pager.objects, o.id ≠ id) →
      (reset host id).run w.pager = .error (.failed (.unknownObject id.number)) w.pager) ∧
    ∀ o ∈ w.pager.objects, o.id = id → ∃ q, (reset host id).run w.pager = .ok () q ∧ Resets w.pager o q ∧
      (reset host id).run q = .ok () { q with journal := .reset id :: q.journal } ∧
      ∀ u u' v', u.pager = q → u.Serving →
        Together u { u with pager := { q with objects := revised q.objects (renewed o) } } u' v' →
        u'.Alike v' ∧ v'.mailbox = u'.mailbox ∧ v'.station = u'.station ∧ v'.mappings = u'.mappings := by
  have keeps := keeps_of_reachable settings w reachable serving
  have ledger := keeps.ledger
  refine ⟨fun unknown => reset_unknown_run w.pager id host ((object_none_iff w.pager id).mpr unknown), ?_⟩
  · rintro o member rfl
    have ran := reset_run w.pager host releases o ledger member
    have known : o.id ∈ w.pager.objects.map Managed.id := List.mem_map_of_mem member
    have there : cleared o ∈ (w.pager.emptied o).objects := (mem_revised _ (cleared o) _ known).mpr (Or.inl rfl)
    have after := ledger_emptied w.pager o ledger member
    refine ⟨_, ran, resets_of_emptied w.pager o ledger member, ?_, fun u u' v' now uServing together => ?_⟩
    · have again := reset_run (w.pager.emptied o) host releases (cleared o) after there
      rwa [emptied_again w.pager o ledger] at again
    · have kept : Keeps settings u.pager := now ▸ ⟨after, keeps.settings⟩
      have alike : u.pager.Alike { w.pager.emptied o with objects := revised (w.pager.emptied o).objects (renewed o) } := by
        rw [now]
        exact emptied_alike_renewed w.pager o ledger member
      have both := (alike_of_together settings u _ u' v' kept (.apart _ uServing alike) together).2
      exact ⟨both, shown_alike u' v' both⟩

end Worker

end DemandPaging

namespace DemandPaging.Worker

open Pager

attribute [local instance] Platform.small

theorem reset_of_three_chunks : ∃ o q, (pressed 4).pager.live.map Residency.owner = [o.id, o.id, o.id] ∧
    (o.swap.map SwapStore.dirtyCount) = some 1 ∧
    (reset (Host.plain []) ⟨1⟩).run (pressed 4).pager = .ok () q ∧ Resets (pressed 4).pager o q ∧
    (reset (Host.plain []) ⟨1⟩).run q = .ok () { q with journal := .reset ⟨1⟩ :: q.journal } := by
  obtain ⟨o, alone, entry⟩ := object_pressed
  have number : o.id = ⟨1⟩ := congrArg Entry.owner entry
  obtain ⟨q, run, resets, again, -⟩ := (reset_starts_over .threePages _ ⟨1⟩ reachable_pressed (by decide +kernel)
    (Host.plain []) (Host.plain_yields []).releases).2 o (alone ▸ List.mem_singleton_self o) number
  have saved : (pressed 4).pager.objects.map (fun o => o.swap.map SwapStore.dirtyCount) = [some 1] := by decide +kernel
  rw [alone] at saved
  exact ⟨o, q, number ▸ by decide +kernel, List.singleton_inj.mp saved, run, resets, again⟩

end DemandPaging.Worker
