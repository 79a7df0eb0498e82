import DemandPaging.Proofs.Mirroring

set_option autoImplicit false

namespace DemandPaging.Pager

variable [Platform]

section

variable (p q : Pager) (s : Shadow) (o : Managed) (i : Nat) (bytes : Bytes)

theorem sourced_brought (value : Nat → UInt8) (fills : o.template.Fills value) (chunk : i < o.shape.chunks)
    (sourced : Sourced p o i bytes q) : o.Brought value i bytes := by
  refine ⟨sourced_size p o i q bytes sourced, fun j within => ?_⟩
  obtain ⟨body, own⟩ := o.shape.piece_byte i j chunk within
  cases sourced with
  | restored store staging given saved =>
      have bit : store.saved (((o.shape.piece i).bodyOffset + j) / o.shape.chunkLen) = true := own.symm ▸ saved
      rw [o.source_saved value store _ given bit, Managed.savedBytes, SparseBytes.getD_slice _ _ _ _ within, Nat.add_assoc]
      rfl
  | filled filler byte old staging unsaved given made size =>
      rw [o.source_unsaved value _ (own.symm ▸ unsaved), Template.pristine]
      have ends := o.shape.piece_data_end i chunk
      have starts := o.shape.piece_offset i chunk
      rw [Managed.filledBytes, Array.getD_eq_getD_getElem?]
      by_cases data : j < (o.shape.piece i).dataLen
      · have front : j < old.size := size.symm ▸ data
        have filled := fills filler i o.calls byte given chunk made j data
        have inside : (o.shape.piece i).bodyOffset + j < o.template.shape.bodyLen :=
          Nat.lt_of_lt_of_le (Nat.add_lt_add_left data _) (ends ▸ Nat.min_le_right _ _)
        rw [if_pos inside, Array.getElem?_append_left (by simpa using front), Array.getElem?_mapIdx,
          Array.getElem?_eq_getElem front, Option.map_some, filled, Option.getD_some, Option.getD_some]
      · have tail : j - old.size < (o.shape.piece i).fillLen - (o.shape.piece i).dataLen := by omega
        have fill := o.shape.piece_end i chunk
        have behind : ¬ (o.shape.piece i).bodyOffset + j < o.template.shape.bodyLen := by
          show ¬ (o.shape.piece i).bodyOffset + j < o.shape.bodyLen
          omega
        rw [if_neg behind, Array.getElem?_append_right (by simp [size]; omega), Array.getElem?_replicate, Array.size_mapIdx,
          if_pos tail, Option.getD_some]

theorem mirrors_sourced (member : o ∈ p.objects) (mirrors : p.Mirrors s)
    (sourced : Sourced p o i bytes q) : q.Mirrors s := by
  cases sourced with
  | restored => exact mirrors_of_live p _ s mirrors rfl fun _ isLive => isLive
  | filled =>
      obtain ⟨x, held, shows, noted⟩ := mirrors.shown o member
      exact mirrors_revise p _ s s o { o with calls := o.calls + 1 } x member rfl mirrors rfl held
        ⟨shows.base, shows.template, shows.fills, shows.bytes⟩
        (fun r isLive owner stores => ⟨(noted r isLive owner stores).1, (noted r isLive owner stores).2.size,
          (noted r isLive owner stores).2.bytes⟩)
        (fun _ _ => rfl) fun r isLive _ => ⟨isLive, rfl⟩

theorem noted_same (installed : ObjectId → Nat → Bytes) (fewer : ∀ id j, q.Resident id j → p.Resident id j) :
    noted p q installed = installed := by
  funext id j
  rw [noted, if_neg]
  exact fun new => new.2 (fewer id j new.1)

theorem noted_old (installed : ObjectId → Nat → Bytes) (id : ObjectId) (j : Nat) (resident : p.Resident id j) :
    noted p q installed id j = installed id j := by
  rw [noted, if_neg]
  exact fun new => new.2 resident

theorem noted_new (installed : ObjectId → Nat → Bytes) (found : q.object? o.id = some o) (resident : q.Resident o.id i)
    (absent : ¬ p.Resident o.id i) : noted p q installed o.id i = o.contents i := by
  rw [noted, if_pos ⟨resident, absent⟩, found]
  rfl

theorem resident_of_installed (inside : i < o.shape.chunks) (installed : Installed p o i bytes q) (id : ObjectId) (j : Nat)
    (resident : q.Resident id j) : p.Resident id j ∨ (id, j) = (o.id, i) := by
  cases installed with
  | fresh queue wf records absent => exact (resident_installed p o i bytes _ inside records id j).mp resident
  | present queue wf records there =>
      left
      obtain ⟨r, isLive, key⟩ := resident
      simp only [live, records] at isLive
      exact ⟨r, isLive, key⟩

section

variable (start : Pager) (queue : CircularQueue Residency) (ledger : Ledger p) (member : o ∈ p.objects)
  (inside : i < o.shape.chunks) (records : queue.toList = p.queue.toList ++ [o.recordOf i bytes]) (missing : o.lacks i)

include ledger member inside records missing

theorem noted_installing (installed : ObjectId → Nat → Bytes) (size : bytes.size = (o.shape.piece i).fillLen)
    (absent : ¬ start.Resident o.id i) : noted start (p.installing o i bytes queue) installed o.id i = bytes := by
  have known : o.id ∈ p.objects.map Managed.id := List.mem_map_of_mem member
  have ids : ((p.installing o i bytes queue).objects.map Managed.id).Nodup :=
    (revised_ids p.objects (o.withChunk i bytes)).symm ▸ ledger.ids
  have there : o.withChunk i bytes ∈ (p.installing o i bytes queue).objects :=
    (mem_revised p.objects (o.withChunk i bytes) _ known).mpr (Or.inl rfl)
  have found := (object_some_iff _ (o.withChunk i bytes) o.id ids).mpr ⟨there, rfl⟩
  have resident : (p.installing o i bytes queue).Resident o.id i :=
    (resident_installed p o i bytes _ inside records o.id i).mpr (Or.inr rfl)
  exact (noted_new start _ (o.withChunk i bytes) i installed found resident absent).trans
    (o.contents_with_chunk i bytes inside missing size)

theorem mirrors_installing (x : PlainObject) (mirrors : p.Mirrors s) (held : s.memory o.id = some x)
    (filled : o.Brought x.value i bytes) (fewer : ∀ id j, p.Resident id j → start.Resident id j)
    (absent : ¬ start.Resident o.id i) :
    (p.installing o i bytes queue).Mirrors (s.noting start (p.installing o i bytes queue)) := by
  obtain ⟨y, same, shows, noted⟩ := mirrors.shown o member
  cases held.symm.trans same
  have live := live_append p o i bytes (p.installing o i bytes queue) inside records
  have newest := noted_installing p o i bytes start queue ledger member inside records missing s.installed filled.size absent
  have isOld : ∀ r ∈ p.live, Pager.noted start (p.installing o i bytes queue) s.installed r.owner r.chunk =
      s.installed r.owner r.chunk := fun r isLive =>
    noted_old start _ s.installed r.owner r.chunk (fewer _ _ ⟨r, isLive, rfl⟩)
  apply mirrors_revise p _ s (s.noting start (p.installing o i bytes queue)) o (o.withChunk i bytes) x member rfl mirrors rfl
    held
  · refine ⟨shows.base, shows.template, shows.fills, fun writable k within => ?_⟩
    rw [o.view_with_chunk x.value i bytes k (ledger.sound o member) inside missing filled within]
    exact shows.bytes writable k within
  · intro r isLive owner stores
    rw [live] at isLive
    cases List.mem_append.mp isLive with
    | inl before =>
        obtain ⟨digest, brought⟩ := noted r before owner stores
        have same := isOld r before
        rw [owner] at same
        show r.digest = Digest.of (Pager.noted start _ s.installed o.id r.chunk) ∧
          (o.withChunk i bytes).Brought x.value r.chunk (Pager.noted start _ s.installed o.id r.chunk)
        rw [same]
        exact ⟨digest, brought.size, brought.bytes⟩
    | inr new =>
        rw [List.mem_singleton.mp new]
        show Digest.of bytes = Digest.of (Pager.noted start _ s.installed o.id i) ∧
          (o.withChunk i bytes).Brought x.value i (Pager.noted start _ s.installed o.id i)
        rw [newest]
        exact ⟨rfl, filled.size, filled.bytes⟩
  · exact fun _ _ => rfl
  · intro r isLive other
    rw [live] at isLive
    cases List.mem_append.mp isLive with
    | inl before => exact ⟨before, isOld r before⟩
    | inr new => exact absurd (congrArg Residency.owner (List.mem_singleton.mp new)) other

end

theorem mirrors_installed (start : Pager) (ledger : Ledger p) (member : o ∈ p.objects) (inside : i < o.shape.chunks)
    (mirrors : p.Mirrors s) (brought : ∀ x, s.memory o.id = some x → o.Brought x.value i bytes)
    (fewer : ∀ id j, p.Resident id j → start.Resident id j) (absent : ¬ start.Resident o.id i)
    (installed : Installed p o i bytes q) : q.Mirrors (s.noting start q) := by
  cases installed with
  | present queue wf records resident => exact absurd (fewer o.id i resident) absent
  | fresh queue wf records away =>
      obtain ⟨x, held, -⟩ := mirrors.shown o member
      exact mirrors_installing p s o i bytes start queue ledger member inside records
        (lacks_of_not_resident p o i ledger member inside away) x mirrors held (brought x held) fewer absent

end

theorem mirrors_resolved (p q : Pager) (s : Shadow) (address : Nat) (ledger : Ledger p) (mirrors : p.Mirrors s)
    (missing : ∀ o ∈ p.objects, ∀ k, k < o.shape.bodyReserved → address = o.mapping.base + (o.shape.headerPadded + k) →
      ¬ p.Resident o.id (k / o.shape.chunkLen))
    (resolved : Resolved p address q) (honest : Undeceived p q s.installed) :
    q.Mirrors (s.noting p q) := by
  cases resolved with
  | header =>
      rw [Shadow.noting, noted_same p p.noticed s.installed fun _ _ resident => resident]
      exact mirrors_of_live p _ s mirrors rfl fun _ isLive => isLive
  | body o now k calls bytes roomy supplied q member place inside room becomes nowMember sourced there installed =>
      have noticed := ledger_noticed p ledger
      have turns := turns_of_room p.noticed roomy _ room
      obtain ⟨-, suppliedLedger, queue⟩ := ledgers_of_room p now _ _ bytes roomy supplied ledger room nowMember sourced
      have shape := o.becomes_shape now becomes
      have chunk : k / o.shape.chunkLen < now.shape.chunks := shape ▸ o.shape.chunk_of_offset_lt k inside
      have absent : ¬ p.Resident now.id (k / o.shape.chunkLen) := becomes.id ▸ missing o member k inside place
      have sameLive : supplied.live = roomy.live := by simp only [live, queue]
      have sameResident : ∀ id j, supplied.Resident id j → roomy.Resident id j := fun id j resident => by
        rw [Resident, ← sameLive]
        exact resident
      have fewer := fun id j (resident : q.Resident id j) =>
        resident_of_installed supplied q { now with calls } _ bytes chunk installed id j resident
      -- What the pass evicted is not what the fault brought in, so it is evicted in the end.
      have passed : Undeceived p.noticed roomy s.installed := by
        intro x xMember stores j resident gone
        refine honest x xMember stores j resident fun left => ?_
        cases fewer x.id j left with
        | inl before => exact gone (sameResident x.id j before)
        | inr same =>
            have id : x.id = now.id := congrArg Prod.fst same
            have own : j = k / o.shape.chunkLen := congrArg Prod.snd same
            rw [id, own] at resident
            exact absent resident
      have passing := mirrors_turns p.noticed roomy s noticed
        (mirrors_of_live p _ s mirrors rfl fun _ isLive => isLive) turns passed
      have supplies := mirrors_sourced roomy supplied s now _ bytes nowMember passing.mirrors sourced
      apply mirrors_installed supplied q s { now with calls } _ bytes p suppliedLedger there chunk supplies _ _ absent
        installed
      · intro x held
        obtain ⟨y, nowHeld, shows, -⟩ := passing.mirrors.shown now nowMember
        cases held.symm.trans nowHeld
        have brought := sourced_brought roomy supplied now _ bytes x.value shows.fills chunk sourced
        exact ⟨brought.size, brought.bytes⟩
      · exact fun id j resident => passing.fewer id j (sameResident id j resident)

section

variable (p : Pager) (s : Shadow)

theorem mirrors_allocated (host : Host) (id : ObjectId) (template : Template) (grant : Grant) (q : Pager)
    (value : Nat → UInt8) (ledger : Ledger p) (mirrors : p.Mirrors s) (unknown : s.memory id = none)
    (fills : template.Fills value) (allocated : Allocated p host id template grant q) :
    q.Mirrors (s.put id (some (.fresh grant.base template value))) := by
  have other : ∀ o ∈ p.objects, o.id ≠ id := by
    intro o member same
    obtain ⟨x, held, -⟩ := mirrors.shown o member
    rw [same, unknown] at held
    cases held
  obtain ⟨base, swap, index, placed, sound, listed, affordable, opens⟩ := allocated
  constructor
  · intro known x held
    by_cases same : known = id
    · exact ⟨_, List.mem_cons_self, same.symm⟩
    · simp only [Shadow.put, if_neg same] at held
      obtain ⟨o, member, own⟩ := mirrors.held known x held
      have stays : decide (o.id ≠ id) = true := decide_eq_true (own ▸ same)
      exact ⟨o, List.mem_cons_of_mem _ (List.mem_filter.mpr ⟨member, stays⟩), own⟩
  · intro o member
    cases List.mem_cons.mp member with
    | inl new =>
        subst new
        refine ⟨_, if_pos rfl, ⟨rfl, rfl, fills, fun _ k _ => ?_⟩, fun r isLive owner => ?_⟩
        · exact Managed.view_fresh value id template base k swap fun t same => (opens.sound t same).2
        · obtain ⟨x, xMember, xOf⟩ := ledger.owned r isLive
          exact absurd (xOf.owner.symm.trans owner) (other x xMember)
    | inr old =>
        obtain ⟨before, apart⟩ := List.mem_filter.mp old
        obtain ⟨x, held, shows, noted⟩ := mirrors.shown o before
        exact ⟨x, (if_neg (of_decide_eq_true apart)).trans held, shows, noted⟩

theorem mirrors_freed (o : Managed) (index : AddressMap ObjectId) (ledger : Ledger p) (mirrors : p.Mirrors s) :
    (p.freed o index).Mirrors (s.put o.id none) := by
  have live : (p.freed o index).live = p.live.filter fun r => r.owner ≠ o.id := live_retiring p o.id ledger.queue
  constructor
  · intro id x held
    by_cases same : id = o.id
    · simp only [Shadow.put, if_pos same] at held
      cases held
    · simp only [Shadow.put, if_neg same] at held
      obtain ⟨y, member, own⟩ := mirrors.held id x held
      exact ⟨y, List.mem_filter.mpr ⟨member, decide_eq_true (own ▸ same)⟩, own⟩
  · intro y member
    obtain ⟨before, apart⟩ := List.mem_filter.mp member
    obtain ⟨x, held, shows, noted⟩ := mirrors.shown y before
    refine ⟨x, (if_neg (of_decide_eq_true apart)).trans held, shows, fun r isLive => noted r ?_⟩
    rw [live] at isLive
    exact (List.mem_filter.mp isLive).1

theorem mirrors_emptied (o : Managed) (ledger : Ledger p) (member : o ∈ p.objects) (mirrors : p.Mirrors s) :
    (p.emptied o).Mirrors (s.put o.id ((s.memory o.id).map .reset)) := by
  have live : (p.emptied o).live = p.live.filter fun r => r.owner ≠ o.id := live_retiring p o.id ledger.queue
  obtain ⟨x, held, shows, -⟩ := mirrors.shown o member
  apply mirrors_revise p (p.emptied o) s _ o (cleared o) x.reset member rfl mirrors rfl
  · simp only [Shadow.put, held, if_true, Option.map_some]
  · refine ⟨shows.base, shows.template, shows.fills, fun writable k inside => ?_⟩
    have now := shows.bytes writable k inside
    rw [show x.reset.value = x.value from rfl, o.view_cleared x.value k (ledger.sound o member) inside, now]
    simp only [PlainObject.reset, ← shows.template]
  · intro r isLive owner
    rw [live] at isLive
    have apart := (List.mem_filter.mp isLive).2
    rw [owner] at apart
    exact absurd rfl (of_decide_eq_true apart)
  · exact fun id other => if_neg other
  · intro r isLive _
    rw [live] at isLive
    exact ⟨(List.mem_filter.mp isLive).1, rfl⟩

theorem mirrors_served (host : Host) (q : Pager) (request : Request) (reply : Reply) (value : Nat → UInt8)
    (ledger : Ledger p) (mirrors : p.Mirrors s)
    (fresh : ∀ id template, request = .allocate id template → s.memory id = none ∧ template.Fills value)
    (served : Served host p request reply q) : q.Mirrors (s.serve value request reply) := by
  cases served with
  | allocated id template grant q allocated =>
      obtain ⟨unknown, fills⟩ := fresh id template rfl
      exact mirrors_allocated p s host id template grant q value ledger mirrors unknown fills allocated
  | freed o index => exact mirrors_freed p s o index ledger mirrors
  | emptied o member => exact mirrors_emptied p s o ledger member mirrors
  | refused request failure =>
      have unchanged : s.serve value request (.failed failure) = s := by cases request <;> rfl
      rw [unchanged]
      exact mirrors

theorem mirrors_stored (q : Pager) (o : Managed) (x : PlainObject) (k : Nat) (b : UInt8) (mirrors : p.Mirrors s)
    (member : o ∈ p.objects) (held : s.memory o.id = some x) (present : o.mapping.isPresent k = true)
    (objects : q.objects = revised p.objects (o.withByte k b)) (queue : q.queue = p.queue) :
    q.Mirrors (s.put o.id (some (x.store k b))) := by
  have live : q.live = p.live := by simp only [live, queue]
  obtain ⟨y, same, shows, noted⟩ := mirrors.shown o member
  cases held.symm.trans same
  apply mirrors_revise p q s _ o (o.withByte k b) (x.store k b) member rfl mirrors objects
  · simp only [Shadow.put, if_true]
  · refine ⟨shows.base, shows.template, shows.fills, fun writable j inside => ?_⟩
    rw [show (x.store k b).value = x.value from rfl, o.view_with_byte x.value k j b present,
      shows.bytes writable j inside]
    rfl
  · intro r isLive owner stores
    obtain ⟨digest, brought⟩ := noted r (live ▸ isLive) owner stores
    exact ⟨digest, brought.size, brought.bytes⟩
  · exact fun id other => if_neg other
  · exact fun r isLive _ => ⟨live ▸ isLive, rfl⟩

end

end DemandPaging.Pager
