import ObjectModel.Policy
import ObjectModel.Property.Slot
import ObjectModel.Table.Ascending

/-!
The elements of an array.

Dense storage is a list of slots, some of them holes, in a buffer of a certain capacity.  Sparse
storage is a map from indices to slots.  Dense storage becomes sparse when a slot is stored far
beyond the populated region, and stays sparse from then on.
-/

namespace ObjectModel

inductive Elements
  | dense (slots : List (Option Slot)) (capacity : Nat)
  | sparse (slots : AscendingMap Slot)

/-- The slots of a list that are not holes, each with its index; the first has index `position`. -/
def populated : (position : Nat) → List (Option Slot) → List (Nat × Slot)
  | _, [] => []
  | position, none :: rest => populated (position + 1) rest
  | position, some slot :: rest => (position, slot) :: populated (position + 1) rest

theorem le_of_mem_populated {position : Nat} {slots : List (Option Slot)} {entry : Nat × Slot}
    (member : entry ∈ populated position slots) : position ≤ entry.1 := by
  induction slots generalizing position with
  | nil => simp [populated] at member
  | cons head rest inductionHypothesis =>
    cases head with
    | none => exact Nat.le_of_succ_le (inductionHypothesis member)
    | some slot =>
      rcases List.mem_cons.mp member with rfl | later
      · exact Nat.le_refl _
      · exact Nat.le_of_succ_le (inductionHypothesis later)

theorem ascending_populated (position : Nat) (slots : List (Option Slot)) :
    (populated position slots).Pairwise fun a b => a.1 < b.1 := by
  induction slots generalizing position with
  | nil => exact .nil
  | cons head rest inductionHypothesis =>
    cases head with
    | none => exact inductionHypothesis (position + 1)
    | some slot =>
      exact List.pairwise_cons.mpr
        ⟨fun _ member => le_of_mem_populated member, inductionHypothesis (position + 1)⟩

theorem find?_populated (position wanted : Nat) (slots : List (Option Slot)) :
    AscendingMap.find? wanted (populated position slots) =
      if position ≤ wanted then slots[wanted - position]?.join else none := by
  induction slots generalizing position with
  | nil => simp [populated, AscendingMap.find?]
  | cons head rest inductionHypothesis =>
    have after : position < wanted → wanted - position = wanted - (position + 1) + 1 := by omega
    cases head with
    | none =>
      simp only [populated, inductionHypothesis]
      rcases Nat.lt_trichotomy position wanted with below | rfl | above
      · rw [after below, if_pos (Nat.le_of_lt below), if_pos (Nat.succ_le_of_lt below)]
        rfl
      · rw [if_neg (by omega), if_pos (Nat.le_refl _), Nat.sub_self]
        rfl
      · rw [if_neg (by omega), if_neg (by omega)]
    | some slot =>
      simp only [populated, AscendingMap.find?, inductionHypothesis]
      rcases Nat.lt_trichotomy position wanted with below | rfl | above
      · rw [if_neg (Nat.ne_of_lt below), after below, if_pos (Nat.le_of_lt below),
          if_pos (Nat.succ_le_of_lt below)]
        rfl
      · simp
      · rw [if_neg (Nat.ne_of_gt above), if_neg (by omega), if_neg (by omega)]

/-- The last index, not below `target`, of a slot that is not configurable; the head of the list has
index `position`. -/
def lastFixed? (target : Nat) : (position : Nat) → List (Option Slot) → Option Nat
  | _, [] => none
  | position, slot :: rest =>
    match lastFixed? target (position + 1) rest with
    | some index => some index
    | none =>
      if target ≤ position && slot.any (fun stored => !stored.isConfigurable) then some position
      else none

def passOver {α : Type} : (n : Nat) → List α → Option (List α × α × List α)
  | _, [] => none
  | 0, member :: rest => some ([], member, rest)
  | n + 1, member :: rest =>
    (passOver n rest).map fun (passed, next, left) => (member :: passed, next, left)

/-- Exchange the members at two positions in one pass: the higher position is counted from behind
the lower one. -/
def exchangeInPass {α : Type} (members : List α) (low high : Nat) : List α :=
  match passOver low members with
  | none => members
  | some (front, first, rest) =>
    match passOver (high - low - 1) rest with
    | none => members
    | some (middle, second, back) => front ++ second :: middle ++ first :: back

namespace Elements

def empty : Elements := .dense [] 0

def ofValues (values : List Value) : Elements :=
  .dense (values.map fun value => some (.bare value)) values.length

def isSparse : Elements → Bool
  | .dense .. => false
  | .sparse _ => true

def capacity? : Elements → Option Nat
  | .dense _ capacity => some capacity
  | .sparse _ => none

def get? : Elements → Nat → Option Slot
  | .dense slots _, index => slots[index]?.join
  | .sparse slots, index => slots.get? index

def entries : Elements → List (Nat × Slot)
  | .dense slots _ => populated 0 slots
  | .sparse slots => slots.entries

/-- The number of positions that a sort visits: every slot of a dense buffer, holes included, or
the stored slots of a sparse one. -/
def sortLength : Elements → Nat
  | .dense slots _ => slots.length
  | .sparse slots => slots.size

def sortSlot? (elements : Elements) (position : Nat) : Option Slot :=
  match elements with
  | .dense slots _ => slots[position]?.join
  | .sparse slots => slots.values[position]?

/-- Exchange the slots at two positions of a sort; sparse storage keeps its indices. -/
def sortSwap (elements : Elements) (a b : Nat) : Elements :=
  let low := min a b
  let high := max a b
  if low = high then elements
  else
    match elements with
    | .dense slots capacity =>
      if high < slots.length then
        .dense ((slots.set low slots[high]?.join).set high slots[low]?.join) capacity
      else elements
    | .sparse slots => .sparse (slots.withValues (exchangeInPass slots.values low high))

def clear (elements : Elements) (index : Nat) : Elements :=
  match elements with
  | .dense slots capacity => .dense (slots.set index none) capacity
  | .sparse slots => .sparse (slots.erase index)

def modify (elements : Elements) (index : Nat) (slot : Slot) : Elements :=
  match elements with
  | .dense slots capacity => .dense (slots.set index (some slot)) capacity
  | .sparse slots => .sparse (slots.insert index slot)

def toSparse : Elements → AscendingMap Slot
  | .dense slots _ => ⟨populated 0 slots, ascending_populated 0 slots⟩
  | .sparse slots => slots

def extended (slots : List (Option Slot)) (index : Nat) (slot : Slot) : List (Option Slot) :=
  slots ++ List.replicate (index - slots.length) none ++ [some slot]

/-- Store a slot at an index.  Dense storage of `count` elements is extended by holes to reach the
index, within its capacity or after growing it, or becomes sparse. -/
def put (policy : Policy) (count : Nat) (elements : Elements) (index : Nat) (slot : Slot) :
    Elements :=
  match elements with
  | .sparse slots => .sparse (slots.insert index slot)
  | .dense slots capacity =>
    if index < slots.length then .dense (slots.set index (some slot)) capacity
    else if index < capacity then .dense (extended slots index slot) capacity
    else if policy.goesSparse index count then .sparse (elements.toSparse.insert index slot)
    else .dense (extended slots index slot) (policy.grownCapacity capacity (index + 1))

/-- The highest index, not below `target`, of an element that is not configurable.  In dense storage
only indices below `length` count. -/
def lastFixedFrom? (elements : Elements) (target length : Nat) : Option Nat :=
  match elements with
  | .dense slots _ => lastFixed? target 0 (slots.take length)
  | .sparse slots =>
    (slots.entries.reverse.find? fun entry =>
      target ≤ entry.1 && !entry.2.isConfigurable).map Prod.fst

def slotsFrom (elements : Elements) (target : Nat) : List Slot :=
  match elements with
  | .dense slots _ => (slots.drop target).filterMap id
  | .sparse slots => (slots.filterIndex fun index => target ≤ index).values

/-- Drop the elements at and above an index.  A dense buffer of which less than a quarter stays in
use is released, unless it is small. -/
def dropFrom (policy : Policy) (elements : Elements) (target : Nat) : Elements :=
  match elements with
  | .dense slots capacity =>
    if slots.length ≤ target then elements
    else
      let released := policy.shrinkReleaseMinimum ≤ target ∧ target < capacity / 4
      .dense (slots.take target) (if released then target else capacity)
  | .sparse slots => .sparse (slots.filterIndex fun index => index < target)

@[simp]
theorem get?_toSparse (elements : Elements) (wanted : Nat) :
    elements.toSparse.get? wanted = elements.get? wanted := by
  cases elements with
  | dense slots capacity => simp [toSparse, AscendingMap.get?, get?, find?_populated]
  | sparse slots => rfl

@[simp]
theorem get?_clear (elements : Elements) (index wanted : Nat) :
    (elements.clear index).get? wanted =
      if wanted = index then none else elements.get? wanted := by
  cases elements with
  | dense slots capacity =>
    by_cases equal : wanted = index
    · subst equal
      simp only [clear, get?, List.getElem?_set_self', if_true]
      cases slots[wanted]? <;> rfl
    · simp [clear, get?, equal, List.getElem?_set_ne (Ne.symm equal)]
  | sparse slots => simp [clear, get?]

theorem getElem?_extended (slots : List (Option Slot)) {index : Nat} (slot : Slot)
    (beyond : slots.length ≤ index) (wanted : Nat) :
    (extended slots index slot)[wanted]?.join =
      if wanted = index then some slot else slots[wanted]?.join := by
  have lengthEq : (slots ++ List.replicate (index - slots.length) none).length = index := by
    simp only [List.length_append, List.length_replicate]
    omega
  rcases Nat.lt_trichotomy wanted index with below | rfl | above
  · rw [extended, List.getElem?_append_left (by omega), if_neg (Nat.ne_of_lt below),
      List.getElem?_append]
    split
    next => rfl
    next outside =>
      rw [List.getElem?_replicate, if_pos (by omega), List.getElem?_eq_none (by omega)]
      rfl
  · rw [extended, List.getElem?_append_right (by omega), lengthEq]
    simp
  · rw [extended, if_neg (Nat.ne_of_gt above), List.getElem?_eq_none (by simp; omega),
      List.getElem?_eq_none (by omega)]

@[simp]
theorem get?_put (policy : Policy) (count : Nat) (elements : Elements) (index wanted : Nat)
    (slot : Slot) :
    (elements.put policy count index slot).get? wanted =
      if wanted = index then some slot else elements.get? wanted := by
  cases elements with
  | sparse slots => simp [put, get?]
  | dense slots capacity =>
    simp only [put]
    split
    next inside =>
      by_cases equal : wanted = index
      · subst equal
        simp [get?, List.getElem?_set_self inside]
      · simp [get?, equal, List.getElem?_set_ne (Ne.symm equal)]
    next outside =>
      have beyond : slots.length ≤ index := Nat.le_of_not_lt outside
      split
      next => exact getElem?_extended slots slot beyond wanted
      next =>
        split
        next =>
          change ((dense slots capacity).toSparse.insert index slot).get? wanted = _
          rw [AscendingMap.get?_insert, get?_toSparse]
        next => exact getElem?_extended slots slot beyond wanted

@[simp]
theorem get?_modify {elements : Elements} {index : Nat} (present : (elements.get? index).isSome)
    (slot : Slot) (wanted : Nat) :
    (elements.modify index slot).get? wanted =
      if wanted = index then some slot else elements.get? wanted := by
  cases elements with
  | sparse slots => simp [modify, get?]
  | dense slots capacity =>
    have inside : index < slots.length := by
      refine Nat.lt_of_not_le fun outside => ?_
      simp [get?, List.getElem?_eq_none outside] at present
    by_cases equal : wanted = index
    · subst equal
      simp [modify, get?, List.getElem?_set_self inside]
    · simp [modify, get?, equal, List.getElem?_set_ne (Ne.symm equal)]

@[simp]
theorem get?_dropFrom (policy : Policy) (elements : Elements) (target wanted : Nat) :
    (elements.dropFrom policy target).get? wanted =
      if wanted < target then elements.get? wanted else none := by
  cases elements with
  | sparse slots => simp [dropFrom, get?]
  | dense slots capacity =>
    simp only [dropFrom]
    split
    next short =>
      split
      next => rfl
      next outside => simp [get?, List.getElem?_eq_none (by omega : slots.length ≤ wanted)]
    next =>
      simp only [get?, List.getElem?_take]
      split <;> rfl

end Elements

end ObjectModel
