import DemandPaging.Proofs.Allocating

set_option autoImplicit false

namespace DemandPaging

theorem Counters.set_resident_fewer (c : Counters) (n : Nat) (below : n ≤ c.peakResidentBytes) :
    c.setResident n = { c with residentBytes := n } := by
  rw [setResident, Nat.max_eq_left below]

variable [Platform]

namespace Pager

structure Retires (p : Pager) (id : ObjectId) (q : Pager) : Prop where
  gone : ∀ r ∈ q.live, r.owner ≠ id
  length : q.queue.toList.length = p.queue.toList.length
  retired : ∀ (i : Nat) r, p.queue.toList[i]? = some r → r.owner = id → q.queue.toList[i]? = some { r with len := 0 }
  kept : ∀ (i : Nat) r, p.queue.toList[i]? = some r → r.owner ≠ id → q.queue.toList[i]? = some r
  resident : q.resident + ((p.live.filter fun r => r.owner = id).map Residency.len).sum = p.resident
  published : q.counters = { p.counters with residentBytes := q.resident, liveObjects := q.counters.liveObjects }

structure Frees (p : Pager) (o : Managed) (q : Pager) : Prop extends Retires p o.id q where
  unmapped : ∀ address, o.entry.Holds address → q.index.find? address = none
  found : ∀ address, ¬ o.entry.Holds address → q.index.find? address = p.index.find? address
  entries : p.index.toList.Perm (o.entry :: q.index.toList)
  objects : ∀ x, x ∈ q.objects ↔ x ∈ p.objects ∧ x.id ≠ o.id
  number : q.counters.liveObjects + 1 = p.counters.liveObjects
  unregistered : q.watched = p.watched.erase o.mapping.span
  rest : q.settings = p.settings ∧ q.staging = p.staging ∧ q.remains = p.remains ∧ q.journal = p.journal

section

variable (p q : Pager) (id : ObjectId)

theorem retired_get (i : Nat) (r : Residency) (wf : p.queue.WellFormed) (queue : q.queue = (p.retiring id).queue)
    (there : p.queue.toList[i]? = some r) : q.queue.toList[i]? = some (r.retired id) := by
  have list : q.queue.toList = p.queue.toList.map (Residency.retired id) := by
    rw [queue]
    exact CircularQueue.to_list_map _ _ wf
  rw [list, List.getElem?_map, there, Option.map_some]

theorem retires_of_retiring (ledger : Ledger p) (queue : q.queue = (p.retiring id).queue)
    (resident : q.resident = (p.retiring id).resident)
    (published : q.counters = { p.counters with residentBytes := q.resident, liveObjects := q.counters.liveObjects }) :
    Retires p id q := by
  have live : q.live = p.live.filter fun r => r.owner ≠ id := by
    rw [← live_retiring p id ledger.queue, live, live, queue]
  have split := queued_retiring p id ledger.queue
  have total := ledger.total
  refine ⟨fun r member => ?_, ?_, fun i r there own => ?_, fun i r there other => ?_, ?_, published⟩
  · rw [live, List.mem_filter] at member
    simpa using member.2
  · rw [queue, retiring, CircularQueue.to_list_map _ _ ledger.queue, List.length_map]
  · rw [retired_get p q id i r ledger.queue queue there, Residency.retired, if_pos own]
  · rw [retired_get p q id i r ledger.queue queue there, Residency.retired, if_neg other]
  · rw [resident]
    show p.resident - p.ownedBytes id + p.ownedBytes id = p.resident
    omega

theorem length_without (o : Managed) (ids : (p.objects.map Managed.id).Nodup) (member : o ∈ p.objects) :
    (p.objects.filter fun x => x.id ≠ o.id).length + 1 = p.objects.length := by
  have once : (p.objects.map Managed.id).count o.id = 1 :=
    List.count_eq_one_of_mem ids (List.mem_map_of_mem member)
  rw [List.count, List.countP_map] at once
  have own : (p.objects.filter fun x => x.id = o.id).length = 1 := by
    rw [← List.countP_eq_length_filter]
    rw [← once]
    apply List.countP_congr
    intro x _
    simp
  have split := List.length_eq_length_filter_add (l := p.objects) fun x => decide (x.id ≠ o.id)
  have others : (p.objects.filter fun x => !decide (x.id ≠ o.id)) = p.objects.filter fun x => x.id = o.id := by
    simp
  rw [others, own] at split
  exact split.symm

theorem find_freed (o : Managed) (index : AddressMap ObjectId) (address : Nat) (ledger : Ledger p) (sound : index.Sound)
    (removed : p.index.toList.Perm (o.entry :: index.toList)) (outside : ¬ o.entry.Holds address) :
    index.find? address = p.index.find? address := by
  apply Option.ext
  intro e
  rw [index.find_eq_some_iff address e sound, p.index.find_eq_some_iff address e ledger.index, removed.mem_iff, List.mem_cons]
  constructor
  · exact fun given => ⟨Or.inr given.1, given.2⟩
  · rintro ⟨rfl | listed, holds⟩
    · exact absurd holds outside
    · exact ⟨listed, holds⟩

theorem find_freed_own (o : Managed) (index : AddressMap ObjectId) (address : Nat) (ledger : Ledger p) (sound : index.Sound)
    (removed : p.index.toList.Perm (o.entry :: index.toList)) (inside : o.entry.Holds address) :
    index.find? address = none := by
  apply Option.eq_none_iff_forall_ne_some.mpr
  intro e found
  obtain ⟨listed, holds⟩ := (index.find_eq_some_iff address e sound).mp found
  have nodup := AddressMap.lists_nodup _ _ (p.index.to_list_lists ledger.index)
  rw [removed.nodup_iff, List.nodup_cons] at nodup
  have same : e = o.entry := p.index.sound_holds_unique address e o.entry ledger.index
    (removed.mem_iff.mpr (List.mem_cons_of_mem _ listed)) (removed.mem_iff.mpr List.mem_cons_self) holds inside
  exact nodup.1 (same ▸ listed)

theorem free_unknown_run (unknown : p.object? id = none) :
    (free id).run p = .error (.failed (.unknownObject id.number)) p :=
  run_error_of_ensures p (free id) p _ (free_unknown_ensures p id unknown)

theorem reset_unknown_run (host : Host) (unknown : p.object? id = none) :
    (reset host id).run p = .error (.failed (.unknownObject id.number)) p :=
  run_error_of_ensures p (reset host id) p _ (reset_unknown_ensures p host id unknown)

theorem reset_run (host : Host) (releases : host.Releases) (o : Managed) (ledger : Ledger p) (member : o ∈ p.objects) :
    (reset host o.id).run p = .ok () (p.emptied o) := by
  apply run_ok_of_ensures
  exact ensures_mono _ _ _ _ _ _ (reset_ensures p o host ledger member) (fun _ _ => id)
    fun _ _ failed => failed.1 releases

theorem frees_of_freed (o : Managed) (index : AddressMap ObjectId) (ledger : Ledger p) (counted : p.Counted)
    (member : o ∈ p.objects) (sound : index.Sound) (removed : p.index.toList.Perm (o.entry :: index.toList)) :
    Frees p o (p.freed o index) := by
  have peak := ledger.peak.1
  have fewer : (p.retiring o.id).resident ≤ p.counters.peakResidentBytes := Nat.le_trans (Nat.sub_le _ _) peak
  have counters : (p.freed o index).counters = { p.counters with
      residentBytes := (p.freed o index).resident, liveObjects := (p.freed o index).counters.liveObjects } := by
    simp only [freed, p.counters.set_resident_fewer _ fewer, Counters.setLive]
  refine {
    toRetires := retires_of_retiring p _ o.id ledger rfl rfl counters
    unmapped := fun address inside => find_freed_own p o index address ledger sound removed inside
    found := fun address outside => find_freed p o index address ledger sound removed outside
    entries := removed, objects := fun x => by simp [freed], number := ?_, unregistered := rfl, rest := ⟨rfl, rfl, rfl, rfl⟩ }
  have left := length_without p o ledger.ids member
  have before : p.counters.liveObjects = p.objects.length := counted
  rw [before]
  exact left

end

end Pager

end DemandPaging
