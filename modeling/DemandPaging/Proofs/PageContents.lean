import Mathlib.Data.List.Basic
import DemandPaging.Memory.Sparse

set_option autoImplicit false

namespace DemandPaging.SparseBytes

variable [Platform]

theorem byte_congr (m n : SparseBytes) (i : Nat) (same : m.frame? (i / Page.size) = n.frame? (i / Page.size)) :
    m.byte i = n.byte i := by
  unfold byte
  rw [same]

theorem byte_of_frame (m : SparseBytes) (i : Nat) (frame : Frame) (found : m.frame? (i / Page.size) = some frame) :
    m.byte i = frame.byte i := by
  rw [byte]
  rw [found]

theorem byte_of_absent (m : SparseBytes) (i : Nat) (absent : m.isPresent (i / Page.size) = false) : m.byte i = 0 := by
  rw [isPresent, Option.isSome_eq_false_iff, Option.isNone_iff_eq_none] at absent
  rw [byte, absent]

theorem present_empty (page : Nat) : empty.isPresent page = false := rfl

theorem byte_empty (i : Nat) : empty.byte i = 0 := rfl

theorem byte_frame_zero (i : Nat) : Frame.zero.byte i = 0 := by
  simp [Frame.byte, Frame.zero]

theorem present_setByte (m : SparseBytes) (i page : Nat) (b : UInt8) :
    (m.setByte i b).isPresent page = (decide (page = i / Page.size) || m.isPresent page) := by
  simp only [isPresent, frame?, setByte, PageTable.get?_alter]
  by_cases same : page = i / Page.size <;> simp [same]

theorem present_drop (m : SparseBytes) (first count page : Nat) :
    (m.drop first count).isPresent page = (!decide (first ≤ page ∧ page < first + count) && m.isPresent page) := by
  unfold isPresent
  rw [frame?_drop]
  by_cases inside : first ≤ page ∧ page < first + count <;> simp [inside]

theorem byte_drop (m : SparseBytes) (first count i : Nat) :
    (m.drop first count).byte i =
      if first ≤ i / Page.size ∧ i / Page.size < first + count then 0 else m.byte i := by
  unfold byte
  rw [frame?_drop]
  by_cases inside : first ≤ i / Page.size ∧ i / Page.size < first + count
  · rw [if_pos inside, if_pos inside]
  · rw [if_neg inside, if_neg inside]

theorem frame?_zero (m : SparseBytes) (first count page : Nat) :
    (m.zero first count).frame? page =
      if first ≤ page ∧ page < first + count then some Frame.zero else m.frame? page := by
  rw [zero]
  induction count with
  | zero =>
      rw [if_neg (by omega)]
      rfl
  | succ count ih =>
      rw [List.range'_concat, List.foldl_append, List.foldl_cons, List.foldl_nil, frame?_put, ih, Nat.one_mul]
      by_cases last : page = first + count
      · rw [if_pos last, if_pos (by omega)]
      · rw [if_neg last]
        by_cases inside : first ≤ page ∧ page < first + count
        · rw [if_pos inside, if_pos (by omega)]
        · rw [if_neg inside, if_neg (by omega)]

theorem present_zero (m : SparseBytes) (first count page : Nat) :
    (m.zero first count).isPresent page = (decide (first ≤ page ∧ page < first + count) || m.isPresent page) := by
  unfold isPresent
  rw [frame?_zero]
  by_cases inside : first ≤ page ∧ page < first + count <;> simp [inside]

theorem byte_zero (m : SparseBytes) (first count i : Nat) :
    (m.zero first count).byte i =
      if first ≤ i / Page.size ∧ i / Page.size < first + count then 0 else m.byte i := by
  by_cases inside : first ≤ i / Page.size ∧ i / Page.size < first + count
  · rw [if_pos inside, byte_of_frame _ i Frame.zero (by rw [frame?_zero, if_pos inside]), byte_frame_zero]
  · rw [if_neg inside]
    exact byte_congr _ _ i (by rw [frame?_zero, if_neg inside])

theorem getElem?_slice (m : SparseBytes) (offset len i : Nat) :
    (m.slice offset len)[i]? = if i < len then some (m.byte (offset + i)) else none := by
  simp only [slice, Array.getElem?_ofFn]
  by_cases inside : i < len <;> simp [inside]

theorem getD_slice (m : SparseBytes) (offset len i : Nat) (inside : i < len) (d : UInt8) :
    (m.slice offset len).getD i d = m.byte (offset + i) := by
  rw [Array.getD_eq_getD_getElem?, getElem?_slice, if_pos inside, Option.getD_some]

theorem slice_eq_iff (m : SparseBytes) (offset len : Nat) (bytes : Bytes) :
    m.slice offset len = bytes ↔ bytes.size = len ∧ ∀ i, i < len → m.byte (offset + i) = bytes.getD i 0 := by
  constructor
  · intro same
    subst same
    exact ⟨size_slice m offset len, fun i inside => (getD_slice m offset len i inside 0).symm⟩
  · intro given
    obtain ⟨size, same⟩ := given
    apply Array.ext_getElem?
    intro i
    rw [getElem?_slice]
    by_cases inside : i < len
    · rw [if_pos inside, same i inside, Array.getD_eq_getD_getElem?, Array.getElem?_eq_getElem (by omega),
        Option.getD_some]
    · rw [if_neg inside, Array.getElem?_eq_none (by omega)]

theorem slice_congr (m n : SparseBytes) (offset len : Nat)
    (same : ∀ i, i < len → m.byte (offset + i) = n.byte (offset + i)) : m.slice offset len = n.slice offset len := by
  apply (slice_eq_iff m offset len _).mpr
  exact ⟨size_slice n offset len, fun i inside => by rw [same i inside, getD_slice n offset len i inside]⟩

def installed (bytes : Bytes) (count : Nat) : Frame := Vector.ofFn fun k => bytes.getD (Page.size * count + k.val) 0

theorem install_absent (m : SparseBytes) (first : Nat) (bytes : Bytes) (count : Nat)
    (absent : ∀ page, first ≤ page → page < first + count → m.isPresent page = false) :
    (m.install first bytes count).2 = true ∧ ∀ page, (m.install first bytes count).1.frame? page =
      if first ≤ page ∧ page < first + count then some (installed bytes (page - first)) else m.frame? page := by
  induction count with
  | zero => exact ⟨rfl, fun page => (if_neg (by omega)).symm⟩
  | succ count ih =>
      obtain ⟨complete, frames⟩ := ih fun page low high => absent page low (by omega)
      have free : (m.install first bytes count).1.isPresent (first + count) = false := by
        have before := absent (first + count) (by omega) (by omega)
        rw [isPresent] at before ⊢
        rw [frames, if_neg (by omega)]
        exact before
      rw [install]
      simp only [complete, free, Bool.not_false, Bool.and_self, if_true, true_and]
      intro page
      rw [frame?_put, frames]
      by_cases last : page = first + count
      · rw [if_pos last, if_pos (by omega), last, Nat.add_sub_cancel_left]
        rfl
      · rw [if_neg last]
        by_cases inside : first ≤ page ∧ page < first + count
        · rw [if_pos inside, if_pos (by omega)]
        · rw [if_neg inside, if_neg (by omega)]

theorem install_present (m : SparseBytes) (first : Nat) (bytes : Bytes) (count : Nat) (positive : 0 < count)
    (present : m.isPresent first = true) : m.install first bytes count = (m, false) := by
  induction count with
  | zero => omega
  | succ count ih =>
      rw [install]
      cases count with
      | zero => simp [install, present]
      | succ count => simp [ih (by omega)]

theorem byte_installed (bytes : Bytes) (first i : Nat) (inside : first ≤ i / Page.size) :
    (installed bytes (i / Page.size - first)).byte i = bytes.getD (i - Page.size * first) 0 := by
  have place : Page.size * (i / Page.size - first) + i % Page.size = i - Page.size * first := by
    have split := Nat.div_add_mod i Page.size
    have order := Nat.mul_le_mul_left Page.size inside
    rw [Nat.mul_sub]
    omega
  simp only [Frame.byte, installed, Vector.getElem_ofFn, place]

theorem byte_install (m : SparseBytes) (first : Nat) (bytes : Bytes) (count i : Nat)
    (absent : ∀ page, first ≤ page → page < first + count → m.isPresent page = false) :
    (m.install first bytes count).1.byte i =
      if first ≤ i / Page.size ∧ i / Page.size < first + count then bytes.getD (i - Page.size * first) 0
      else m.byte i := by
  obtain ⟨-, frames⟩ := install_absent m first bytes count absent
  by_cases inside : first ≤ i / Page.size ∧ i / Page.size < first + count
  · rw [if_pos inside, byte_of_frame _ i _ (by rw [frames, if_pos inside]), byte_installed bytes first i inside.1]
  · rw [if_neg inside]
    exact byte_congr _ _ i (by rw [frames, if_neg inside])

theorem present_install (m : SparseBytes) (first : Nat) (bytes : Bytes) (count page : Nat)
    (absent : ∀ page, first ≤ page → page < first + count → m.isPresent page = false) :
    (m.install first bytes count).1.isPresent page =
      (decide (first ≤ page ∧ page < first + count) || m.isPresent page) := by
  unfold isPresent
  rw [(install_absent m first bytes count absent).2]
  by_cases inside : first ≤ page ∧ page < first + count <;> simp [inside]

theorem patched_congr (m n : SparseBytes) (page offset : Nat) (bytes : Bytes) (same : m.frame? page = n.frame? page) :
    m.patched page offset bytes = n.patched page offset bytes := by
  have sameBytes : ∀ k : Fin Page.size, m.byte (Page.size * page + k.val) = n.byte (Page.size * page + k.val) := by
    intro k
    apply byte_congr
    have inside : (Page.size * page + k.val) / Page.size = page := by
      rw [Nat.mul_add_div Page.size_pos, Nat.div_eq_of_lt k.isLt, Nat.add_zero]
    rw [inside, same]
  rw [patched]
  congr
  funext k
  simp only [sameBytes k]

theorem frame?_write_pages (m : SparseBytes) (offset first count page : Nat) (bytes : Bytes) :
    ((List.range' first count).foldl (fun acc page => acc.put page (acc.patched page offset bytes)) m).frame? page =
      if first ≤ page ∧ page < first + count then some (m.patched page offset bytes) else m.frame? page := by
  induction count generalizing page with
  | zero =>
      rw [if_neg (by omega)]
      rfl
  | succ count ih =>
      rw [List.range'_concat, List.foldl_append, List.foldl_cons, List.foldl_nil, frame?_put, Nat.one_mul]
      by_cases last : page = first + count
      · have untouched := ih (first + count)
        rw [if_neg (by omega)] at untouched
        rw [if_pos last, if_pos (by omega), last, patched_congr _ m _ _ _ untouched]
      · rw [if_neg last, ih]
        by_cases inside : first ≤ page ∧ page < first + count
        · rw [if_pos inside, if_pos (by omega)]
        · rw [if_neg inside, if_neg (by omega)]

theorem byte_patched (m : SparseBytes) (i offset : Nat) (bytes : Bytes) :
    (m.patched (i / Page.size) offset bytes).byte i =
      if offset ≤ i then bytes.getD (i - offset) (m.byte i) else m.byte i := by
  simp only [Frame.byte, patched, Vector.getElem_ofFn, Nat.div_add_mod]

theorem byte_write (m : SparseBytes) (offset : Nat) (bytes : Bytes) (i : Nat) :
    (m.write offset bytes).byte i =
      if offset ≤ i ∧ i < offset + bytes.size then bytes.getD (i - offset) 0 else m.byte i := by
  rw [write]
  by_cases nothing : bytes.isEmpty = true
  · have size : bytes.size = 0 := by simpa using nothing
    rw [if_pos nothing, if_neg (by omega)]
  · have size : bytes.size ≠ 0 := by simpa using nothing
    rw [if_neg nothing]
    simp only
    generalize firstEq : offset / Page.size = first
    generalize lastEq : (offset + bytes.size - 1) / Page.size = last
    have frames := frame?_write_pages m offset first (last + 1 - first) (i / Page.size) bytes
    by_cases touched : first ≤ i / Page.size ∧ i / Page.size < first + (last + 1 - first)
    · rw [if_pos touched] at frames
      rw [byte_of_frame _ i _ frames, byte_patched]
      by_cases written : offset ≤ i ∧ i < offset + bytes.size
      · rw [if_pos written.1, if_pos written, Array.getD_eq_getD_getElem?, Array.getD_eq_getD_getElem?,
          Array.getElem?_eq_getElem (by omega), Option.getD_some, Option.getD_some]
      · rw [if_neg written]
        by_cases after : offset ≤ i
        · rw [if_pos after, Array.getD_eq_getD_getElem?, Array.getElem?_eq_none (by omega), Option.getD_none]
        · rw [if_neg after]
    · rw [if_neg touched] at frames
      have untouched : ¬ (offset ≤ i ∧ i < offset + bytes.size) := by
        intro given
        obtain ⟨low, high⟩ := given
        have lowPage : first ≤ i / Page.size := firstEq ▸ Nat.div_le_div_right low
        have highPage : i / Page.size ≤ last := lastEq ▸ Nat.div_le_div_right (by omega)
        omega
      rw [if_neg untouched]
      exact byte_congr _ _ i frames

end DemandPaging.SparseBytes
