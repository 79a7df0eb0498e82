import Mathlib.Algebra.BigOperators.Intervals
import Mathlib.Data.Finset.Card
import Mathlib.Data.Nat.Bitwise
import DemandPaging.Proofs.SwapContents

set_option autoImplicit false

namespace DemandPaging

theorem sum_blocks (f : Nat → Nat) (n m : Nat) :
    ∑ i ∈ Finset.range (n * m), f i = ∑ i ∈ Finset.range n, ∑ j ∈ Finset.range m, f (i * m + j) := by
  induction n with
  | zero => simp
  | succ n ih => rw [Nat.succ_mul, Finset.sum_range_add, ih, Finset.sum_range_succ]

theorem sum_list_range (f : Nat → Nat) (n : Nat) : ((List.range n).map f).foldr (· + ·) 0 = ∑ i ∈ Finset.range n, f i := rfl

theorem count_list_range (p : Nat → Bool) (n : Nat) :
    (List.range n).countP p = ∑ i ∈ Finset.range n, (p i).toNat := by
  induction n with
  | zero => rfl
  | succ n ih =>
      rw [List.range_succ, List.countP_append, List.countP_singleton, ih, Finset.sum_range_succ]
      cases p n <;> rfl

namespace SwapStore

theorem bit_to_nat (k : Nat) : (bit k).toNat = 2 ^ (k % 8) := by
  have table : ∀ a : Fin 8, ((1 : UInt8) <<< UInt8.ofNat a.val).toNat = 2 ^ a.val := by decide
  exact table ⟨k % 8, Nat.mod_lt k (by decide)⟩

theorem test_bit_eq (b : UInt8) (k : Nat) : b.toNat.testBit (k % 8) = (b &&& bit k != 0) := by
  have product : (b &&& bit k).toNat = (b.toNat.testBit (k % 8)).toNat * 2 ^ (k % 8) := by
    rw [UInt8.toNat_and, bit_to_nat, Nat.and_two_pow]
  have zero : (b &&& bit k) = 0 ↔ (b &&& bit k).toNat = 0 := UInt8.toNat_inj.symm
  have positive : 0 < 2 ^ (k % 8) := Nat.two_pow_pos _
  cases set : b.toNat.testBit (k % 8) with
  | true =>
      rw [set, Bool.toNat_true, Nat.one_mul] at product
      have nonzero : (b &&& bit k) ≠ 0 := fun none => by
        have := zero.mp none
        omega
      simpa using nonzero
  | false =>
      rw [set, Bool.toNat_false, Nat.zero_mul] at product
      simpa using zero.mpr product

theorem ones_zero : ones 0 = 0 := by decide

variable [Platform] (s : SwapStore)

theorem ones_saved (i : Nat) : ones (s.map.bytes.byte i) = ∑ k ∈ Finset.range 8, (s.saved (i * 8 + k)).toNat := by
  rw [ones]
  rw [count_list_range]
  refine Finset.sum_congr rfl fun k inside => ?_
  have low := Finset.mem_range.mp inside
  have byte : (i * 8 + k) / 8 = i := by omega
  have place : (i * 8 + k) % 8 = k := by omega
  have test := test_bit_eq (s.map.bytes.byte i) (i * 8 + k)
  rw [place] at test
  rw [saved, byte, test]

theorem page_ones (page : Nat) :
    ((s.map.bytes.frame? page).map fun frame => (frame.toList.map ones).foldr (· + ·) 0).getD 0 =
      ∑ k ∈ Finset.range Page.size, ones (s.map.bytes.byte (page * Page.size + k)) := by
  have located : ∀ k, k < Page.size → (page * Page.size + k) / Page.size = page ∧ (page * Page.size + k) % Page.size = k := by
    intro k inside
    rw [Nat.mul_comm]
    exact ⟨by rw [Nat.mul_add_div Page.size_pos, Nat.div_eq_of_lt inside, Nat.add_zero],
      by rw [Nat.mul_add_mod, Nat.mod_eq_of_lt inside]⟩
  cases found : s.map.bytes.frame? page with
  | none =>
      symm
      apply Finset.sum_eq_zero
      intro k inside
      have low := Finset.mem_range.mp inside
      simp only [SparseBytes.byte, (located k low).1, found]
      exact ones_zero
  | some frame =>
      have bytes : ∀ k (inside : k < Page.size), s.map.bytes.byte (page * Page.size + k) = frame[k] := by
        intro k inside
        rw [SparseBytes.byte_of_frame _ _ frame (by rw [(located k inside).1]; exact found)]
        simp only [Frame.byte, (located k inside).2]
      have listed : frame.toList.map ones =
          (List.range Page.size).map fun k => ones (s.map.bytes.byte (page * Page.size + k)) := by
        apply List.ext_getElem
        · simp
        · intro k low high
          have inside : k < Page.size := by simpa using low
          simp [bytes k inside]
      simp only [Option.map_some, Option.getD_some]
      rw [listed, sum_list_range]

theorem dirty_count_sum : s.dirtyCount = ∑ i ∈ Finset.range (s.bitmapLen / Page.size * Page.size * 8), (s.saved i).toNat := by
  rw [sum_blocks, sum_blocks, dirtyCount, sum_list_range]
  refine Finset.sum_congr rfl fun page _ => ?_
  rw [page_ones]
  refine Finset.sum_congr rfl fun k _ => ?_
  rw [ones_saved]

theorem sum_saved (n : Nat) : ∑ i ∈ Finset.range n, (s.saved i).toNat = {i ∈ Finset.range n | s.saved i = true}.card := by
  rw [Finset.card_filter]
  refine Finset.sum_congr rfl fun i _ => ?_
  cases s.saved i <;> rfl

variable (shape : Shape)

theorem dirty_count_eq (sound : s.Sound shape) :
    s.dirtyCount = {i ∈ Finset.range (s.bitmapLen * 8) | s.saved i = true}.card := by
  rw [dirty_count_sum, bitmap_pages s shape sound, sum_saved]

theorem clear_dirty_payload (k : Nat) : s.clearDirty.payload k = s.payload k := by
  have behind : ¬ (0 ≤ (s.bitmapLen + k) / Page.size ∧ (s.bitmapLen + k) / Page.size < 0 + s.bitmapLen / Page.size) := by
    have pages := Nat.div_le_div_right (c := Page.size) (Nat.le_add_right s.bitmapLen k)
    omega
  have same : s.clearDirty.bitmapLen = s.bitmapLen := rfl
  rw [payload, same, clearDirty, SparseBytes.byte_drop, if_neg behind, payload]

theorem clear_dirty_count (sound : s.Sound shape) : s.clearDirty.dirtyCount = 0 := by
  rw [dirty_count_eq s.clearDirty shape (clear_dirty_sound s shape sound), Finset.card_eq_zero, Finset.filter_eq_empty_iff]
  intro i inside
  have front := Finset.mem_range.mp inside
  rw [clear_dirty_bits s shape i sound (by rw [show s.clearDirty.bitmapLen = s.bitmapLen from rfl] at front; omega)]
  exact Bool.false_ne_true

end SwapStore

end DemandPaging
