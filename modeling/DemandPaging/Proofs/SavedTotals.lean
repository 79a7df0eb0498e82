import Mathlib.Algebra.Order.BigOperators.Group.List
import DemandPaging.Proofs.Retiring
import DemandPaging.Proofs.SavedBits

set_option autoImplicit false

namespace DemandPaging

variable [Platform]

def Managed.savedCount (o : Managed) : Nat := (o.swap.map SwapStore.dirtyCount).getD 0

def Pager.savedTotal (p : Pager) : Nat := (p.objects.map Managed.savedCount).sum

namespace SwapStore

variable (s : SwapStore) (shape : Shape) (sound : s.Sound shape)

include sound

theorem dirty_count_takes (index : Nat) (bytes : Bytes) (next : SwapStore) (takes : s.Takes shape index bytes next) :
    next.dirtyCount ≤ s.dirtyCount + 1 := by
  have bitmap : next.bitmapLen = s.bitmapLen := takes.sound.bitmap.trans sound.bitmap.symm
  rw [s.dirty_count_eq shape sound, next.dirty_count_eq shape takes.sound, bitmap]
  refine Nat.le_trans (Finset.card_le_card fun i member => ?_) (Finset.card_insert_le index _)
  obtain ⟨front, saved⟩ := Finset.mem_filter.mp member
  rw [Finset.mem_insert, Finset.mem_filter]
  by_cases chunk : i < shape.chunks
  · rw [takes.saved i chunk, Bool.or_eq_true, decide_eq_true_iff] at saved
    exact saved.imp_right fun before => ⟨front, before⟩
  · have inFront := Finset.mem_range.mp front
    rw [takes.spare i (Nat.le_of_not_lt chunk) (by omega)] at saved
    exact Or.inr ⟨front, saved⟩

theorem dirty_count_pos (i : Nat) (inside : i < shape.chunks) (saved : s.saved i = true) : 0 < s.dirtyCount := by
  have front := s.bit_in_bitmap shape i sound (sound.chunks ▸ inside)
  rw [s.dirty_count_eq shape sound, Finset.card_pos]
  exact ⟨i, Finset.mem_filter.mpr ⟨Finset.mem_range.mpr (by omega), saved⟩⟩

theorem dirty_count_unsaved (none : ∀ i, s.saved i = false) : s.dirtyCount = 0 := by
  rw [s.dirty_count_eq shape sound, Finset.card_eq_zero, Finset.filter_eq_empty_iff]
  intro i _
  rw [none i]
  exact Bool.false_ne_true

end SwapStore

namespace Managed

variable (o : Managed) (sound : o.Sound)

include sound

theorem saved_count_evicted (later : Managed) (r : Residency) (saved : Bool) (evicted : o.Evicted r saved later) :
    later.savedCount ≤ o.savedCount + saved.toNat := by
  cases saved with
  | false =>
      rw [savedCount, (evicted.kept rfl).1]
      exact Nat.le_refl _
  | true =>
      obtain ⟨-, s, marked, store, now, takes⟩ := evicted.stored rfl
      rw [savedCount, savedCount, store, now]
      exact s.dirty_count_takes o.shape (sound.store s store) r.chunk _ marked takes

theorem saved_count_cleared : (Pager.cleared o).savedCount = 0 := by
  cases store : o.swap with
  | none => simp only [savedCount, Pager.cleared, store, Option.map_none, Option.getD_none]
  | some s =>
      simp only [savedCount, Pager.cleared, store, Option.map_some, Option.getD_some]
      exact s.clear_dirty_count o.shape (sound.store s store)

end Managed

namespace Pager

theorem revised_absent (objects : List Managed) (later : Managed) (absent : later.id ∉ objects.map Managed.id) :
    revised objects later = objects := by
  rw [revised]
  refine (List.map_congr_left fun x member => ?_).trans (List.map_id' objects)
  exact if_neg fun same => absent (List.mem_map.mpr ⟨x, member, same⟩)

theorem sum_revised (f : Managed → Nat) (objects : List Managed) (o later : Managed) (ids : (objects.map Managed.id).Nodup)
    (member : o ∈ objects) (same : later.id = o.id) :
    ((revised objects later).map f).sum + f o = (objects.map f).sum + f later := by
  induction objects with
  | nil => cases member
  | cons x rest ih =>
      rw [List.map_cons, List.nodup_cons] at ids
      obtain ⟨once, ids⟩ := ids
      have split : revised (x :: rest) later = (if x.id = later.id then later else x) :: revised rest later := rfl
      rcases List.mem_cons.mp member with rfl | inRest
      · rw [split, if_pos same.symm, revised_absent rest later (same ▸ once)]
        simp only [List.map_cons, List.sum_cons]
        omega
      · have other : x.id ≠ later.id := fun own => once (own ▸ same ▸ List.mem_map_of_mem inRest)
        have step := ih ids inRest
        rw [split, if_neg other]
        simp only [List.map_cons, List.sum_cons]
        omega

section

variable (p : Pager) (o later : Managed) (ids : (p.objects.map Managed.id).Nodup) (member : o ∈ p.objects)

theorem saved_total_pos (i : Nat) (s : SwapStore) (sound : o.Sound) (member : o ∈ p.objects) (store : o.swap = some s)
    (inside : i < o.shape.chunks) (saved : s.saved i = true) : 0 < p.savedTotal := by
  have own : 0 < o.savedCount := by
    rw [Managed.savedCount, store]
    exact s.dirty_count_pos o.shape (sound.store s store) i inside saved
  exact Nat.lt_of_lt_of_le own (List.le_sum_of_mem (List.mem_map_of_mem member))

include ids member

theorem saved_total_evicted (r : Residency) (saved : Bool) (sound : o.Sound) (evicted : o.Evicted r saved later) :
    ((revised p.objects later).map Managed.savedCount).sum ≤ p.savedTotal + saved.toNat := by
  have total := sum_revised Managed.savedCount p.objects o later ids member (o.evicted_becomes later r saved evicted).id
  have own := o.saved_count_evicted sound later r saved evicted
  rw [savedTotal]
  omega

theorem saved_total_revised (same : later.id = o.id) (fewer : later.savedCount ≤ o.savedCount) :
    ((revised p.objects later).map Managed.savedCount).sum ≤ p.savedTotal := by
  have total := sum_revised Managed.savedCount p.objects o later ids member same
  rw [savedTotal]
  omega

end

theorem saved_count_fresh (host : Host) (used : List Span) (id : ObjectId) (template : Template) (base : Nat)
    (swap : Option SwapStore) (opens : Opens host used template swap) :
    (freshObject id template base swap).savedCount = 0 := by
  cases store : swap with
  | none => rfl
  | some s =>
      obtain ⟨sound, unsaved⟩ := opens.sound s store
      exact s.dirty_count_unsaved template.shape sound unsaved

theorem saved_total_without (p : Pager) (keep : Managed → Bool) :
    ((p.objects.filter keep).map Managed.savedCount).sum ≤ p.savedTotal :=
  (List.filter_sublist.map Managed.savedCount).sum_le_sum fun _ _ => Nat.zero_le _

end Pager

end DemandPaging
