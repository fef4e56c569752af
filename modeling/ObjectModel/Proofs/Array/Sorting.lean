import Mathlib.Algebra.BigOperators.Group.List.Basic
import Mathlib.Algebra.Group.End
import Mathlib.Logic.Equiv.Basic
import ObjectModel.Proofs.Array.Sparse

/-!
# Sorting in place

A sort rearranges an array by exchanging two positions at a time.  Each exchange is a transposition
of the positions, a series of them is the product of these transpositions, and nothing about the
array changes but which slot stands where.  In sparse storage the positions count the stored
indices from below, and it is the slots that move: the indices stay.
-/

namespace ObjectModel

/-- The exchange of two positions below a bound.  If one of them lies beyond it, nothing moves. -/
def transposition (bound a b : Nat) : Equiv.Perm Nat :=
  if a < bound ∧ b < bound then Equiv.swap a b else 1

@[simp]
theorem transposition_transposition (bound a b position : Nat) :
    transposition bound a b (transposition bound a b position) = position := by
  unfold transposition
  split
  · exact Equiv.swap_apply_self a b position
  · rfl

@[simp]
theorem transposition_lt_iff (bound a b position : Nat) :
    transposition bound a b position < bound ↔ position < bound := by
  unfold transposition
  split
  next inside =>
    rw [Equiv.swap_apply_def]
    split_ifs with atA atB
    · simp [atA, inside]
    · simp [atB, inside]
    · rfl
  next => rfl

theorem getElem?_exchange {α : Type} (members : List α) (a b position : Nat) :
    (exchange members a b)[position]? = members[transposition members.length a b position]? := by
  unfold exchange transposition
  split
  next first second foundFirst foundSecond =>
    obtain ⟨insideA, rfl⟩ := List.getElem?_eq_some_iff.mp foundFirst
    obtain ⟨insideB, rfl⟩ := List.getElem?_eq_some_iff.mp foundSecond
    rw [if_pos ⟨insideA, insideB⟩, Equiv.swap_apply_def]
    by_cases atB : position = b
    · subst atB
      by_cases atA : position = a
      · subst atA
        simp [insideA]
      · simp [atA, insideA, insideB]
    · by_cases atA : position = a
      · subst atA
        simp [Ne.symm atB, insideA, insideB]
      · simp [atA, atB, Ne.symm atA, Ne.symm atB]
  next missing =>
    have outside : ¬(a < members.length ∧ b < members.length) := fun ⟨insideA, insideB⟩ =>
      missing _ _ (List.getElem?_eq_getElem insideA) (List.getElem?_eq_getElem insideB)
    rw [if_neg outside]
    rfl

theorem exchange_exchange {α : Type} (members : List α) (a b : Nat) :
    exchange (exchange members a b) a b = members := by
  refine List.ext_getElem? ?_
  intro position
  rw [getElem?_exchange, getElem?_exchange, length_exchange, transposition_transposition]

namespace Elements

variable (elements : Elements) (a b : Nat)

theorem sortLength_sortSwap : (elements.sortSwap a b).sortLength = elements.sortLength := by
  cases elements with
  | dense slots capacity =>
    rw [sortSwap_dense]
    exact length_exchange slots a b
  | sparse slots =>
    have sameSize := slots.length_exchange_values a b
    simp only [sortSwap_sparse, sortLength]
    rw [← AscendingMap.length_values, AscendingMap.values_withValues sameSize, sameSize]

/-- An exchange is a transposition of the positions. -/
theorem sortSlot?_sortSwap (position : Nat) :
    (elements.sortSwap a b).sortSlot? position =
      elements.sortSlot? (transposition elements.sortLength a b position) := by
  cases elements with
  | dense slots capacity =>
    simp only [sortSwap_dense, sortSlot?, sortLength, getElem?_exchange]
  | sparse slots =>
    have sameSize := slots.length_exchange_values a b
    simp only [sortSwap_sparse, sortSlot?, sortLength, AscendingMap.values_withValues sameSize,
      getElem?_exchange, AscendingMap.length_values]

theorem sortSlot?_eq_none {position : Nat} (beyond : elements.sortLength ≤ position) :
    elements.sortSlot? position = none := by
  cases elements with
  | dense slots capacity =>
    rw [sortSlot?, List.getElem?_eq_none beyond]
    rfl
  | sparse slots =>
    rw [sortSlot?, List.getElem?_eq_none]
    rw [AscendingMap.length_values]
    exact beyond

theorem capacity?_sortSwap : (elements.sortSwap a b).capacity? = elements.capacity? := by
  cases elements with
  | dense slots capacity => rw [sortSwap_dense, capacity?, capacity?]
  | sparse slots => rw [sortSwap_sparse, capacity?, capacity?]

theorem isSome_get?_sortSwap (sparse : elements.isSparse = true) (index : Nat) :
    ((elements.sortSwap a b).get? index).isSome = (elements.get? index).isSome := by
  cases elements with
  | dense slots capacity => cases sparse
  | sparse slots =>
    have sameSize := slots.length_exchange_values a b
    simp only [sortSwap_sparse, get?]
    rw [Bool.eq_iff_iff, AscendingMap.isSome_get?_iff, AscendingMap.isSome_get?_iff,
      AscendingMap.indices_withValues sameSize]

theorem sortSwap_sortSwap : (elements.sortSwap a b).sortSwap a b = elements := by
  cases elements with
  | dense slots capacity => simp only [sortSwap_dense, exchange_exchange]
  | sparse slots =>
    have sameSize := slots.length_exchange_values a b
    have valuesOnce := AscendingMap.values_withValues sameSize
    have indicesOnce := AscendingMap.indices_withValues sameSize
    have sizeOnce : slots.values.length = (slots.withValues (exchange slots.values a b)).size := by
      rw [AscendingMap.length_values, ← AscendingMap.length_values (slots.withValues _), valuesOnce,
        sameSize]
    simp only [sortSwap_sparse, valuesOnce, exchange_exchange]
    exact congrArg Elements.sparse (AscendingMap.ext_values
      ((AscendingMap.indices_withValues sizeOnce).trans indicesOnce)
      (AscendingMap.values_withValues sizeOnce))

end Elements

namespace ArrayObject

variable {array before next last : ArrayObject}

def sortSwaps (array : ArrayObject) (swaps : List (UInt32 × UInt32)) : ArrayObject :=
  swaps.foldl (fun array pair => array.after (.sortSwap pair.1 pair.2)) array

/-- Where the slots come from in a series of exchanges: the product of the transpositions. -/
def arrangement (bound : Nat) (swaps : List (UInt32 × UInt32)) : Equiv.Perm Nat :=
  (swaps.map fun pair => transposition bound pair.1.toNat pair.2.toNat).prod

/-- The number of elements below an index. -/
def rank (array : ArrayObject) (index : Nat) : Nat :=
  (List.range index).countP fun below => (array.element? below).isSome

/-- The slots of an array stand in another order, and all else is as before. -/
structure Rearranged (order : Equiv.Perm Nat) (array next : ArrayObject) : Prop where
  /-- The slot at a position, or its hole, comes from the position that `order` tells. -/
  slots : ∀ position, next.sortSlot? position = array.sortSlot? (order position)
  inside : ∀ position, order position < array.sortLength ↔ position < array.sortLength
  sortLength : next.sortLength = array.sortLength
  isSparse : next.elements.isSparse = array.elements.isSparse
  capacity : next.elements.capacity? = array.elements.capacity?
  /-- Sparse storage has slots at the same indices. -/
  indices : array.elements.isSparse = true →
    ∀ index, (next.element? index).isSome = (array.element? index).isSome
  /-- The length, the counts, the flags and all other properties are the same. -/
  rest : next = { array with elements := next.elements }

namespace Rearranged

variable {order further : Equiv.Perm Nat}

theorem refl (array : ArrayObject) : Rearranged 1 array array :=
  ⟨fun _ => rfl, fun _ => .rfl, rfl, rfl, rfl, fun _ _ => rfl, rfl⟩

theorem trans (first : Rearranged order before next) (second : Rearranged further next last) :
    Rearranged (order * further) before last where
  slots position := by rw [second.slots, first.slots, Equiv.Perm.mul_apply]
  inside position := by
    rw [Equiv.Perm.mul_apply, first.inside, ← first.sortLength, second.inside]
  sortLength := second.sortLength.trans first.sortLength
  isSparse := second.isSparse.trans first.isSparse
  capacity := second.capacity.trans first.capacity
  indices sparse index := by
    rw [second.indices (first.isSparse.trans sparse), first.indices sparse]
  rest := by
    have same := second.rest
    rw [first.rest] at same
    exact same

theorem sortSwap (array : ArrayObject) (a b : Nat) :
    Rearranged (transposition array.sortLength a b) array (array.sortSwap a b) where
  slots := array.elements.sortSlot?_sortSwap a b
  inside := transposition_lt_iff array.sortLength a b
  sortLength := array.elements.sortLength_sortSwap a b
  isSparse := array.elements.isSparse_sortSwap a b
  capacity := array.elements.capacity?_sortSwap a b
  indices := array.elements.isSome_get?_sortSwap a b
  rest := rfl

end Rearranged

/-- A series of exchanges is the product of their transpositions. -/
theorem rearranged_sortSwaps (array : ArrayObject) (swaps : List (UInt32 × UInt32)) :
    Rearranged (arrangement array.sortLength swaps) array (array.sortSwaps swaps) := by
  induction swaps generalizing array with
  | nil => exact .refl array
  | cons pair rest inductionHypothesis =>
    -- A position is followed back through the later exchanges before the first one.
    have first := Rearranged.sortSwap array pair.1.toNat pair.2.toNat
    have others := inductionHypothesis (array.sortSwap pair.1.toNat pair.2.toNat)
    rw [first.sortLength] at others
    exact first.trans others

theorem Reachable.sortSwaps (reachable : Reachable array) (swaps : List (UInt32 × UInt32)) :
    Reachable (array.sortSwaps swaps) := by
  induction swaps generalizing array with
  | nil => exact reachable
  | cons pair rest inductionHypothesis => exact inductionHypothesis (reachable.mutated _)

theorem sortSlot?_eq_some_iff (sparse : array.elements.isSparse = true) {position : Nat}
    {slot : Slot} :
    array.sortSlot? position = some slot ↔
      ∃ index, array.element? index = some slot ∧ array.rank index = position := by
  obtain ⟨slots, stored⟩ : ∃ slots, array.elements = .sparse slots := by
    cases stored : array.elements with
    | dense slots capacity =>
      rw [stored] at sparse
      cases sparse
    | sparse slots => exact ⟨slots, rfl⟩
  have found : ∀ index, array.element? index = slots.get? index := by
    intro index
    rw [element?, stored]
    rfl
  simp only [rank, found, sortSlot?, stored, Elements.sortSlot?]
  exact AscendingMap.getElem?_values_eq_some_iff

theorem sortSlot?_of_dense (dense : array.elements.isSparse = false) (position : Nat) :
    array.sortSlot? position = array.element? position := by
  rw [sortSlot?, element?]
  cases stored : array.elements with
  | dense slots capacity => rfl
  | sparse slots =>
    rw [stored] at dense
    cases dense

/-- A sort visits every element, and no position beyond the length. -/
theorem WellFormed.sortLength_bounds (wellFormed : array.WellFormed) :
    array.elementCount ≤ array.sortLength ∧ array.sortLength ≤ array.length ∧
      (array.elements.isSparse = true → array.sortLength = array.elementCount) := by
  have counted := wellFormed.size_eq
  have bounded := wellFormed.elementCount_le
  have within := wellFormed.within
  rw [sortLength]
  cases stored : array.elements with
  | dense slots capacity =>
    rw [stored] at counted within
    refine ⟨?_, within, fun sparse => by cases sparse⟩
    rw [← counted]
    refine AscendingMap.size_le fun entry member => ?_
    simpa [Elements.sortLength] using lt_of_mem_populated member
  | sparse slots =>
    rw [stored] at counted
    exact ⟨counted.ge, counted.trans_le bounded, fun _ => counted⟩

/-- The exchanges of a sort rearrange the positions of an array by the product of their
transpositions, and change nothing else.  The positions are the indices of a dense array, holes
included, and the stored indices of a sparse one from the smallest on; a second exchange of the same
positions undoes the first. -/
theorem Reachable.sorts_by_transpositions (reachable : Reachable array)
    (swaps : List (UInt32 × UInt32)) :
    Reachable (array.sortSwaps swaps) ∧
      Rearranged (arrangement array.sortLength swaps) array (array.sortSwaps swaps) ∧
      (array.elementCount ≤ array.sortLength ∧ array.sortLength ≤ array.length) ∧
      (∀ position, array.sortLength ≤ position → array.sortSlot? position = none) ∧
      (array.elements.isSparse = false →
        ∀ position, array.sortSlot? position = array.element? position) ∧
      (array.elements.isSparse = true → array.sortLength = array.elementCount ∧
        ∀ position slot, array.sortSlot? position = some slot ↔
          ∃ index, array.element? index = some slot ∧ array.rank index = position) ∧
      ∀ a b : UInt32, (array.after (.sortSwap a b)).after (.sortSwap a b) = array := by
  have wellFormed := reachable.wellFormed
  obtain ⟨visits, short, exactly⟩ := wellFormed.sortLength_bounds
  refine ⟨reachable.sortSwaps swaps, array.rearranged_sortSwaps swaps, ⟨visits, short⟩, ?_,
    sortSlot?_of_dense, fun sparse => ⟨exactly sparse, fun _ _ => sortSlot?_eq_some_iff sparse⟩, ?_⟩
  · exact fun _ => array.elements.sortSlot?_eq_none
  · intro a b
    simp only [after, sortSwap, Elements.sortSwap_sortSwap]

/-- A sparse array with three elements far apart. -/
def scattered : ArrayObject :=
  (((new none {}).after (.own (.add (.index 70000) (.boolean true)) true)).after
    (.own (.add (.index 3) .null) true)).after (.own (.add (.index 90000) .undefined) true)

theorem scattered_sorted :
    Reachable scattered ∧ scattered.elements.isSparse = true ∧
      (scattered.sortSwaps [(0, 1), (1, 2), (7, 0)]).sortSlot? 2 = some (.bare .null) :=
  have reachable : Reachable scattered := .mutated (.mutated (.mutated (.new none {}) _) _) _
  ⟨reachable, rfl, (reachable.sorts_by_transpositions [(0, 1), (1, 2), (7, 0)]).2.1.slots 2⟩

end ArrayObject

end ObjectModel
