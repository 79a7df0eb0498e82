import DemandPaging.Word

set_option autoImplicit false

namespace DemandPaging

structure Entry (α : Type) where
  base : Nat
  len : Nat
  owner : α
deriving DecidableEq, Repr

def Entry.stop {α : Type} (e : Entry α) : Nat := e.base + e.len

inductive Slot (α : Type) where
  | vacant (base : Nat)
  | taken (entry : Entry α)
deriving DecidableEq, Repr

namespace Slot

variable {α : Type}

def base : Slot α → Nat
  | .vacant base => base
  | .taken entry => entry.base

def entry? : Slot α → Option (Entry α)
  | .vacant _ => none
  | .taken entry => some entry

def isTaken (s : Slot α) : Bool := s.entry?.isSome

def isVacant (s : Slot α) : Bool := s.entry?.isNone

-- Where an address lies relative to a slot. A vacant slot matches its own base only.
def locate (s : Slot α) (address : Nat) : Ordering :=
  if address < s.base then
    .lt
  else
    match s with
    | .vacant base => if address = base then .eq else .gt
    | .taken entry => if address - entry.base < entry.len then .eq else .gt

end Slot

structure AddressMap (α : Type) where
  slots : Array (Slot α)
  live : Nat
  -- How many slots there is room for before the array has to grow.
  capacity : Nat
deriving DecidableEq, Repr

namespace AddressMap

variable {α : Type}

-- Room for slots in an empty map, and the least number of slots that it grows by.
def initialSlots : Nat := 8

inductive Refusal where
  | overlap
  | missing
  | emptyRange
deriving DecidableEq, Repr

def Refusal.message : Refusal → String
  | .overlap => "range overlaps an existing entry"
  | .missing => "no entry at that address"
  | .emptyRange => "empty range"

def empty : AddressMap α where
  slots := #[]
  live := 0
  capacity := initialSlots

instance : Inhabited (AddressMap α) := ⟨empty⟩

def toList (m : AddressMap α) : List (Entry α) := m.slots.toList.filterMap Slot.entry?

-- Outcome of a search: a slot that holds the address, or the place between two slots where it belongs.
inductive Probe where
  | hit (index : Nat)
  | miss (index : Nat)
deriving DecidableEq, Repr

def searchFrom (slots : Array (Slot α)) (address lo hi : Nat) : Probe :=
  if _h : lo < hi then
    let mid := lo + (hi - lo) / 2
    match slots[mid]? with
    | none => .miss lo
    | some slot =>
      match slot.locate address with
      | .lt => searchFrom slots address lo mid
      | .gt => searchFrom slots address (mid + 1) hi
      | .eq => .hit mid
  else
    .miss lo
termination_by hi - lo

def search (m : AddressMap α) (address : Nat) : Probe := searchFrom m.slots address 0 m.slots.size

def find? (m : AddressMap α) (address : Nat) : Option (Entry α) :=
  match m.search address with
  | .hit i => m.slots[i]?.bind Slot.entry?
  | .miss _ => none

inductive Opening where
  | here
  -- The vacant slot at `lo`, before the insertion point, is given up; those between move down.
  | below (lo : Nat)
  -- The vacant slot at `hi`, after the insertion point, is given up; those between move up.
  | above (hi : Nat)
  | fresh
deriving DecidableEq, Repr

def vacantAt (slots : Array (Slot α)) (i : Nat) : Bool := (slots[i]?).any Slot.isVacant

-- Looks for a vacancy at distance `d`, `d + 1`, and so on for `fuel` distances, below before above. With spare room the
-- search ends where the end of the array is reached.
def nearestFrom (slots : Array (Slot α)) (spare : Bool) (point d : Nat) : Nat → Opening
  | 0 => .fresh
  | fuel + 1 =>
    if d ≤ point && vacantAt slots (point - d) then .below (point - d)
    else if vacantAt slots (point + d) then .above (point + d)
    else if spare && point + d == slots.size then .fresh
    else nearestFrom slots spare point (d + 1) fuel

def opening (m : AddressMap α) (point : Nat) : Opening :=
  if vacantAt m.slots point then .here
  else if m.live < m.slots.size then
    nearestFrom m.slots (m.slots.size < m.capacity) point 1 (max point (m.slots.size - point))
  else .fresh

def grownCapacity (m : AddressMap α) : Nat :=
  if m.slots.size = m.capacity then m.capacity + max (m.capacity / 2) initialSlots else m.capacity

-- Puts a slot at the insertion point through the given opening. The second part is the index it ends up at.
def place (m : AddressMap α) (point : Nat) (slot : Slot α) : Opening → AddressMap α × Nat
  | .here => ({ m with slots := m.slots.setIfInBounds point slot }, point)
  | .below lo => ({ m with slots := (m.slots.eraseIdxIfInBounds lo).insertIdxIfInBounds (point - 1) slot }, point - 1)
  | .above hi => ({ m with slots := (m.slots.eraseIdxIfInBounds hi).insertIdxIfInBounds point slot }, point)
  | .fresh => ({ m with slots := m.slots.insertIdxIfInBounds point slot, capacity := m.grownCapacity }, point)

-- Drops the vacant slots right after `index` whose base lies below `stop`: a live range covers them now.
def swallow (slots : Array (Slot α)) (index stop : Nat) : Array (Slot α) :=
  let before := slots.toList.take (index + 1)
  let after := slots.toList.drop (index + 1)
  (before ++ after.dropWhile fun s => s.isVacant && s.base < stop).toArray

def reachesNext (slots : Array (Slot α)) (index stop : Nat) : Bool :=
  ((slots.toList.drop index).find? Slot.isTaken).any fun s => s.base < stop

def insert (m : AddressMap α) (base len : Nat) (owner : α) : Except Refusal (AddressMap α) :=
  if len = 0 then
    .error .emptyRange
  else if Word.limit ≤ base + len then
    .error .overlap
  else
    let insertAt (i : Nat) : Except Refusal (AddressMap α) :=
      if reachesNext m.slots i (base + len) then
        .error .overlap
      else
        let (placed, index) := m.place i (.taken { base, len, owner }) (m.opening i)
        .ok { placed with slots := swallow placed.slots index (base + len), live := m.live + 1 }
    match m.search base with
    | .hit i => if (m.slots[i]?).any Slot.isTaken then .error .overlap else insertAt i
    | .miss i => insertAt i

def remove (m : AddressMap α) (base : Nat) : Except Refusal (α × AddressMap α) :=
  match m.search base with
  | .miss _ => .error .missing
  | .hit i =>
    match m.slots[i]? with
    | some (.taken entry) =>
      if entry.base = base then
        .ok (entry.owner, { m with slots := m.slots.setIfInBounds i (.vacant base), live := m.live - 1 })
      else
        .error .missing
    | _ => .error .missing

def drain (m : AddressMap α) : List (Entry α) × AddressMap α :=
  (m.toList, { m with slots := #[], live := 0 })

-- Slots in strictly rising order of base, no live range reaching the next base, and the count of live slots right.
def Ordered (m : AddressMap α) : Prop :=
  m.slots.toList.Pairwise (fun a b => a.base < b.base ∧ ∀ e, a.entry? = some e → e.stop ≤ b.base) ∧
    m.live = m.toList.length

def inOrder (m : AddressMap α) : Bool :=
  go m.slots.toList && m.live == m.toList.length
where
  go : List (Slot α) → Bool
    | a :: b :: rest => decide (a.base < b.base) && a.entry?.all (fun e => decide (e.stop ≤ b.base)) && go (b :: rest)
    | _ => true

def debugText (m : AddressMap α) : String :=
  "RangeIndex \x7b live: " ++ toString m.live ++ ", slots: " ++ toString m.slots.size ++ ", .. \x7d"

end AddressMap

end DemandPaging
