import DemandPaging.Pager.Fault
import DemandPaging.Pager.Objects
import DemandPaging.Proofs.Ensures

set_option autoImplicit false

namespace DemandPaging.Pager

variable [Platform]

variable {α β : Type}

def Fixes (s : Settings) (x : M α) : Prop :=
  ∀ p : Pager, p.settings = s → Ensures x p (fun _ q => q.settings = s) (fun _ q => q.settings = s)

section

variable (s : Settings)

theorem fixes_pure (a : α) : Fixes s (pure a) := fun _ same => same

theorem fixes_throw (halt : Halt) : Fixes s (throw halt : M α) := fun _ same => same

theorem fixes_fail (failure : Failure) : Fixes s (fail failure : M α) := fixes_throw s _

theorem fixes_breach (b : Breach) : Fixes s (breach b : M α) := fixes_throw s _

theorem fixes_set (q : Pager) (same : q.settings = s) : Fixes s (set q : M Unit) := fun _ _ => same

theorem fixes_modify (f : Pager → Pager) (same : ∀ p : Pager, (f p).settings = p.settings) : Fixes s (modify f : M Unit) :=
  fun p before => (same p).trans before

theorem fixes_lift (e : Except Halt α) : Fixes s (lift e) := by
  cases e with
  | ok a => exact fixes_pure s a
  | error halt => exact fixes_throw s halt

theorem fixes_word (e : Except Word.Fault α) : Fixes s (word e) := fixes_lift s _

theorem fixes_attempt (e : Except Failure α) : Fixes s (attempt e) := fixes_lift s _

theorem fixes_bind (x : M β) (f : β → M α) (first : Fixes s x) (rest : ∀ b, Fixes s (f b)) : Fixes s (x >>= f) := by
  intro p same
  rw [ensures_bind]
  exact ensures_mono x p _ _ _ _ (first p same) (fun b q after => rest b q after) (fun _ _ after => after)

theorem fixes_get (f : Pager → M α) (rest : ∀ p : Pager, p.settings = s → Fixes s (f p)) : Fixes s (get >>= f) := by
  intro p same
  rw [ensures_bind, ensures_get]
  exact rest p same p same

theorem fixes_try_catch (x : M α) (handler : Halt → M α) (tried : Fixes s x) (caught : ∀ halt, Fixes s (handler halt)) :
    Fixes s (tryCatch x handler) := by
  intro p same
  rw [ensures_try_catch]
  exact ensures_mono x p _ _ _ _ (tried p same) (fun _ _ after => after) (fun halt q after => caught halt q after)

theorem fixes_count (f : Counters → Counters) : Fixes s (count f) := fixes_modify s _ fun _ => rfl

theorem fixes_record (event : Event) : Fixes s (record event) := fixes_modify s _ fun _ => rfl

theorem fixes_set_resident (n : Nat) : Fixes s (setResident n) := fixes_modify s _ fun _ => rfl

theorem fixes_modify_object (id : ObjectId) (f : Managed → Managed) : Fixes s (modify (·.modifyObject id f)) :=
  fixes_modify s _ fun _ => rfl

theorem fixes_unwatch (span : Span) : Fixes s (unwatch span) := fixes_modify s _ fun _ => rfl

theorem fixes_ask (host : Host) (call : SystemCall) : Fixes s (ask host call) := fixes_attempt s _

theorem fixes_when (c : Prop) [Decidable c] (x : M β) (f : β → M α) (a : β) (taken : Fixes s x) (rest : ∀ b, Fixes s (f b)) :
    Fixes s (if c then x >>= f else f a) := by
  by_cases holds : c
  · rw [if_pos holds]
    exact fixes_bind s x f taken rest
  · rw [if_neg holds]
    exact rest a

theorem fixes_ite (c : Prop) [Decidable c] (x y : M α) (left : Fixes s x) (right : Fixes s y) :
    Fixes s (if c then x else y) := by
  by_cases holds : c
  · rwa [if_pos holds]
  · rwa [if_neg holds]

theorem fixes_check_totals : Fixes s checkTotals := by
  rw [checkTotals]
  apply fixes_get
  intro p same
  apply fixes_when s _ _ _ () (fixes_throw s _)
  intro _
  exact fixes_ite s _ _ _ (fixes_throw s _) (fixes_pure s _)

theorem fixes_give_back (len : Nat) : Fixes s (giveBack len) := by
  rw [giveBack]
  apply fixes_get
  intro p same
  split
  · exact fixes_set s _ same
  · exact fixes_breach s _

theorem fixes_retire (id : ObjectId) : Fixes s (retire id) := by
  rw [retire]
  apply fixes_get
  intro p same
  dsimp only
  refine fixes_bind s _ _ (fixes_set s _ ?_) fun _ => ?_
  · exact same
  split
  · exact fixes_breach s _
  · exact fixes_pure s _

theorem fixes_free (id : ObjectId) : Fixes s (free id) := by
  rw [free]
  apply fixes_get
  intro p same
  split
  · exact fixes_fail s _
  · rename_i object _
    refine fixes_bind s _ _ (fixes_set s _ ?_) fun _ => ?_
    · exact same
    apply fixes_bind s _ _ (fixes_unwatch s _)
    intro _
    split
    · exact fixes_breach s _
    · refine fixes_bind s _ _ (fixes_modify s _ ?_) fun _ => ?_
      · exact fun _ => rfl
      apply fixes_bind s _ _ (fixes_retire s id)
      intro _
      apply fixes_get
      intro q _
      apply fixes_bind s _ _ (fixes_set_resident s _)
      intro _
      exact fixes_bind s _ _ (fixes_count s _) fun _ => fixes_check_totals s

theorem fixes_reset (host : Host) (id : ObjectId) : Fixes s (reset host id) := by
  rw [reset]
  apply fixes_get
  intro p same
  split
  · exact fixes_fail s _
  · apply fixes_bind s _ _ (fixes_retire s id)
    intro _
    apply fixes_bind s _ _ (fixes_attempt s _)
    intro released
    apply fixes_bind s _ _ (fixes_modify_object s id _)
    intro _
    apply fixes_get
    intro q _
    apply fixes_bind s _ _ (fixes_set_resident s _)
    intro _
    exact fixes_bind s _ _ (fixes_record s _) fun _ => fixes_check_totals s

theorem fixes_check_first_chunk (layout : Layout) : Fixes s (checkFirstChunk layout) := by
  rw [checkFirstChunk]
  apply fixes_get
  intro p same
  split
  · apply fixes_bind s _ _ (fixes_word s _)
    intro first
    split
    · exact fixes_fail s _
    · exact fixes_pure s _
  · exact fixes_pure s _

theorem fixes_watch (host : Host) (span : Span) : Fixes s (watch host span) := by
  rw [watch]
  apply fixes_bind s _ _ (fixes_ask s host _)
  intro _
  refine fixes_bind s _ _ (fixes_modify s _ fun _ => rfl) fun _ => ?_
  refine fixes_ite s _ _ _ ?_ (fixes_pure s _)
  exact fixes_bind s _ _ (fixes_unwatch s span) fun _ => fixes_fail s _

theorem fixes_zero_header (host : Host) (base : Nat) (layout : Layout) : Fixes s (zeroHeader host base layout) :=
  fixes_ite s _ _ _ (fixes_ask s host _) (fixes_pure s _)

theorem fixes_open_swap (host : Host) (template : Template) (used : List Span) : Fixes s (openSwap host template used) := by
  rw [openSwap]
  split
  · exact fixes_pure s _
  · apply fixes_get
    intro p same
    exact fixes_bind s _ _ (fixes_lift s _) fun _ => fixes_pure s _

theorem fixes_enter (id : ObjectId) (mapping : Mapping) : Fixes s (enter id mapping) := by
  rw [enter]
  apply fixes_get
  intro p same
  split
  · exact fixes_breach s _
  · split
    · exact fixes_set s _ same
    · exact fixes_throw s _

theorem fixes_allocate (host : Host) (id : ObjectId) (template : Template) : Fixes s (allocate host id template) := by
  rw [allocate]
  apply fixes_bind s _ _ (fixes_check_first_chunk s _)
  intro _
  apply fixes_bind s _ _ (fixes_word s _)
  intro size
  apply fixes_get
  intro p same
  apply fixes_bind s _ _ (fixes_attempt s _)
  intro fresh
  apply fixes_bind s _ _ (fixes_watch s host _)
  intro _
  apply fixes_bind s _ _
  · apply fixes_try_catch
    · apply fixes_bind s _ _ (fixes_zero_header s host _ _)
      intro _
      apply fixes_bind s _ _ (fixes_open_swap s host template _)
      intro swap
      exact fixes_bind s _ _ (fixes_enter s id _) fun _ => fixes_pure s _
    · intro halt
      exact fixes_bind s _ _ (fixes_unwatch s _) fun _ => fixes_throw s _
  · intro swap
    refine fixes_bind s _ _ (fixes_modify s _ ?_) fun _ => ?_
    · exact fun _ => rfl
    apply fixes_get
    intro q _
    exact fixes_bind s _ _ (fixes_count s _) fun _ => fixes_pure s _

theorem fixes_save_changed (object : Managed) (swap : SwapStore) (offset : Nat) (r : Residency) :
    Fixes s (saveChanged object swap offset r) := by
  rw [saveChanged]
  apply fixes_bind s _ _ (fixes_attempt s _)
  intro current
  split
  · exact fixes_pure s _
  · apply fixes_bind s _ _ (fixes_word s _)
    intro bodyOffset
    apply fixes_bind s _ _ (fixes_attempt s _)
    intro stored
    apply fixes_bind s _ _ (fixes_attempt s _)
    intro marked
    apply fixes_bind s _ _ (fixes_modify_object s _ _)
    intro _
    exact fixes_bind s _ _ (fixes_count s _) fun _ => fixes_pure s _

theorem fixes_reclaim (host : Host) (r : Residency) : Fixes s (reclaim host r) := by
  have released : ∀ (object : Managed) (saved : Bool), Fixes s (do
      let released ← attempt (object.mapping.release host (r.address - object.mapping.base) r.len)
      modify (·.modifyObject r.owner fun o => { o with mapping := released })
      giveBack r.len
      count fun c => { c with reclaims := c.reclaims + 1 }
      setResident (← get).resident
      record (.reclaimed r.owner r.chunk saved)) := by
    intro object saved
    apply fixes_bind s _ _ (fixes_attempt s _)
    intro released
    apply fixes_bind s _ _ (fixes_modify_object s _ _)
    intro _
    apply fixes_bind s _ _ (fixes_give_back s _)
    intro _
    apply fixes_bind s _ _ (fixes_count s _)
    intro _
    apply fixes_get
    intro q _
    exact fixes_bind s _ _ (fixes_set_resident s _) fun _ => fixes_record s _
  rw [reclaim]
  apply fixes_get
  intro p same
  split
  · exact fixes_breach s _
  · rename_i object _
    refine fixes_when s _ _ _ () (fixes_breach s _) fun _ => ?_
    split
    · exact fixes_bind s _ _ (fixes_pure s _) (released object)
    · exact fixes_bind s _ _ (fixes_save_changed s _ _ _ _) (released object)

theorem fixes_evict (host : Host) (incoming records : Nat) : Fixes s (evict host incoming records) := by
  induction records with
  | zero =>
      rw [evict]
      apply fixes_get
      intro p same
      apply fixes_bind s _ _ (fixes_word s _)
      intro total
      exact fixes_ite s _ _ _ (fixes_fail s _) (fixes_pure s _)
  | succ records ih =>
      rw [evict]
      apply fixes_get
      intro p same
      apply fixes_bind s _ _ (fixes_word s _)
      intro total
      refine fixes_ite s _ _ _ ?_ (fixes_pure s _)
      split
      · exact fixes_fail s _
      · refine fixes_bind s _ _ (fixes_set s _ ?_) fun _ => ?_
        · exact same
        · exact fixes_when s _ _ _ () (fixes_reclaim s host _) fun _ => ih

theorem fixes_make_room (host : Host) (incoming : Nat) : Fixes s (makeRoom host incoming) := by
  rw [makeRoom]
  apply fixes_get
  intro p same
  apply fixes_bind s _ _ (fixes_word s _)
  intro total
  exact fixes_ite s _ _ _ (fixes_evict s host incoming _) (fixes_pure s _)

theorem fixes_fill_chunk (object : Managed) (chunk : Chunk) : Fixes s (fillChunk object chunk) := by
  rw [fillChunk]
  split
  · exact fixes_fail s _
  · apply fixes_get
    intro p same
    apply fixes_bind s _ _ (fixes_record s _)
    intro _
    apply fixes_bind s _ _ (fixes_modify_object s _ _)
    intro _
    split
    · exact fixes_fail s _
    · exact fixes_fail s _
    · exact fixes_bind s _ _ (fixes_count s _) fun _ => fixes_pure s _

theorem fixes_restore_chunk (object : Managed) (swap : SwapStore) (chunk : Chunk) :
    Fixes s (restoreChunk object swap chunk) := by
  rw [restoreChunk]
  apply fixes_bind s _ _ (fixes_attempt s _)
  intro bytes
  apply fixes_bind s _ _ (fixes_count s _)
  intro _
  exact fixes_bind s _ _ (fixes_record s _) fun _ => fixes_pure s _

theorem fixes_source_chunk (object : Managed) (chunk : Chunk) : Fixes s (sourceChunk object chunk) := by
  rw [sourceChunk]
  apply fixes_get
  intro p same
  apply fixes_bind s _ _ (fixes_word s _)
  intro staging
  refine fixes_bind s _ _ (fixes_modify s _ ?_) fun _ => ?_
  · exact fun _ => rfl
  have kept : ∀ bytes : Bytes, Fixes s (do
      modify fun p => { p with staging := p.staging.overwrite bytes }
      pure bytes) := by
    intro bytes
    refine fixes_bind s _ _ (fixes_modify s _ ?_) fun _ => fixes_pure s _
    exact fun _ => rfl
  have filled := fixes_bind s _ _ (fixes_fill_chunk s object chunk) kept
  have restored := fun swap => fixes_bind s _ _ (fixes_restore_chunk s object swap chunk) kept
  cases object.swap with
  | none => exact fixes_bind s _ _ (fixes_pure s _) fun dirty => dirty.rec filled restored
  | some swap =>
      apply fixes_bind s _ _ (fixes_attempt s _)
      intro marked
      exact fixes_bind s _ _ (fixes_pure s _) fun dirty => dirty.rec filled restored

theorem fixes_unrecord (address : Nat) : Fixes s (unrecord address) := by
  rw [unrecord]
  apply fixes_get
  intro p same
  split
  · exact fixes_breach s _
  · refine fixes_bind s _ _ (fixes_set s _ ?_) fun _ => ?_
    · exact same
    refine fixes_ite s _ _ _ ?_ (fixes_breach s _)
    apply fixes_bind s _ _ (fixes_give_back s _)
    intro _
    apply fixes_get
    intro q _
    exact fixes_bind s _ _ (fixes_set_resident s _) fun _ => fixes_check_totals s

theorem fixes_install_chunk (host : Host) (id : ObjectId) (base : Nat) (layout : Layout) (chunk : Chunk) (bytes : Bytes) :
    Fixes s (installChunk host id base layout chunk bytes) := by
  rw [installChunk]
  apply fixes_bind s _ _ (fixes_word s _)
  intro offset
  apply fixes_bind s _ _ (fixes_word s _)
  intro address
  apply fixes_get
  intro p same
  split
  · exact fixes_breach s _
  · refine fixes_bind s _ _ (fixes_set s _ ?_) fun _ => ?_
    · exact same
    apply fixes_bind s _ _ (fixes_word s _)
    intro resident
    apply fixes_bind s _ _ (fixes_set_resident s _)
    intro _
    apply fixes_get
    intro q _
    split
    · exact fixes_breach s _
    · refine fixes_bind s _ _ (fixes_modify_object s _ _) fun _ => ?_
      split
      · exact fixes_bind s _ _ (fixes_record s _) fun _ => fixes_check_totals s
      · exact fixes_bind s _ _ (fixes_unrecord s _) fun _ => fixes_ask s host _
      · exact fixes_bind s _ _ (fixes_unrecord s _) fun _ => fixes_fail s _

theorem fixes_resolve (host : Host) (address : Nat) : Fixes s (resolve host address) := by
  rw [resolve]
  apply fixes_bind s _ _ (fixes_count s _)
  intro _
  apply fixes_get
  intro p same
  split
  · exact fixes_fail s _
  · dsimp only
    split
    · exact fixes_breach s _
    · apply fixes_bind s _ _ (fixes_word s _)
      intro offset
      refine fixes_ite s _ _ _ (fixes_bind s _ _ (fixes_ask s host _) fun _ => fixes_modify_object s _ _) ?_
      apply fixes_bind s _ _ (fixes_word s _)
      intro located
      split
      · exact fixes_breach s _
      · refine fixes_when s _ _ _ () (fixes_fail s _) fun _ => ?_
        apply fixes_bind s _ _ (fixes_make_room s host _)
        intro _
        apply fixes_get
        intro q _
        split
        · exact fixes_breach s _
        · exact fixes_bind s _ _ (fixes_source_chunk s _ _) fun bytes => fixes_install_chunk s host _ _ _ _ _

end

end DemandPaging.Pager
