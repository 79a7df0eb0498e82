set_option autoImplicit false

namespace DemandPaging

-- `here` is page 0. Page `2 * k + 1` is page `k` of `odd`, and page `2 * k + 2` is page `k` of `even`.
inductive PageTable (α : Type) where
  | empty
  | node (here : Option α) (odd even : PageTable α)
deriving DecidableEq

namespace PageTable

variable {α : Type}

def get? : PageTable α → Nat → Option α
  | .empty, _ => none
  | .node here odd even, page =>
    if page = 0 then here
    else if page % 2 = 1 then odd.get? (page / 2)
    else even.get? (page / 2 - 1)

def alterWithin (f : Option α → α) : Nat → PageTable α → Nat → PageTable α
  | 0, t, _ => t
  | depth + 1, .empty, page =>
    if page = 0 then .node (some (f none)) .empty .empty
    else if page % 2 = 1 then .node none (alterWithin f depth .empty (page / 2)) .empty
    else .node none .empty (alterWithin f depth .empty (page / 2 - 1))
  | depth + 1, .node here odd even, page =>
    if page = 0 then .node (some (f here)) odd even
    else if page % 2 = 1 then .node here (alterWithin f depth odd (page / 2)) even
    else .node here odd (alterWithin f depth even (page / 2 - 1))

def alter (t : PageTable α) (page : Nat) (f : Option α → α) : PageTable α := alterWithin f (page + 1) t page

def filter : PageTable α → (Nat → Bool) → PageTable α
  | .empty, _ => .empty
  | .node here odd even, keep =>
    .node (if keep 0 then here else none) (odd.filter fun k => keep (2 * k + 1)) (even.filter fun k => keep (2 * k + 2))

theorem get?_alterWithin (f : Option α → α) (depth : Nat) (t : PageTable α) (page other : Nat) (deep : page < depth) :
    (alterWithin f depth t page).get? other = if other = page then some (f (t.get? page)) else t.get? other := by
  induction depth generalizing t page other with
  | zero => omega
  | succ depth ih =>
    cases t with
    | empty =>
      by_cases root : page = 0
      · subst root
        by_cases same : other = 0 <;> simp [alterWithin, get?, same]
      · by_cases isOdd : page % 2 = 1
        · simp only [alterWithin, if_neg root, if_pos isOdd, get?]
          rw [ih _ _ _ (by omega)]
          grind [get?]
        · simp only [alterWithin, if_neg root, if_neg isOdd, get?]
          rw [ih _ _ _ (by omega)]
          grind [get?]
    | node here odd even =>
      by_cases root : page = 0
      · subst root
        by_cases same : other = 0 <;> simp [alterWithin, get?, same]
      · by_cases isOdd : page % 2 = 1
        · simp only [alterWithin, if_neg root, if_pos isOdd, get?]
          rw [ih _ _ _ (by omega)]
          grind
        · simp only [alterWithin, if_neg root, if_neg isOdd, get?]
          rw [ih _ _ _ (by omega)]
          grind

theorem get?_alter (t : PageTable α) (page other : Nat) (f : Option α → α) :
    (t.alter page f).get? other = if other = page then some (f (t.get? page)) else t.get? other :=
  get?_alterWithin f (page + 1) t page other (Nat.lt_succ_self page)

theorem get?_filter (t : PageTable α) (keep : Nat → Bool) (page : Nat) :
    (t.filter keep).get? page = if keep page then t.get? page else none := by
  induction t generalizing keep page with
  | empty => simp [filter, get?]
  | node here odd even ihOdd ihEven =>
    simp only [filter, get?]
    by_cases root : page = 0
    · subst root
      simp
    · by_cases isOdd : page % 2 = 1
      · have back : 2 * (page / 2) + 1 = page := by omega
        simp [root, isOdd, ihOdd, back]
      · have back : 2 * (page / 2 - 1) + 2 = page := by omega
        simp [root, isOdd, ihEven, back]

end PageTable

end DemandPaging
