import ObjectModel.Proofs.Array.Mutation

/-!
# Reachable arrays

Every array that can be built and mutated is well formed.  So its counts never fall below zero or
outgrow its length, an element that stops a shrink leaves room for the new length, and an array
without described elements has none that must stay.
-/

namespace ObjectModel

/-- What the holder of an array does to it. -/
inductive ArrayMutation
  | own (mutation : OwnMutation) (strict : Bool)
  | setLength (length : UInt32) (strict : Bool)
  | preventExtensions
  | setPrototype (prototype : Option ObjectId)
  | sortSwap (a b : UInt32)

namespace ArrayObject

/-- The array after a mutation, whether it was refused or not. -/
def after (array : ArrayObject) : ArrayMutation → ArrayObject
  | .own mutation strict => ((mutateOwn mutation strict).on array).2
  | .setLength length strict => ((assignLength length.toNat strict).on array).2
  | .preventExtensions => { array with base := array.base.preventExtensions }
  | .setPrototype prototype => { array with base := array.base.setPrototype prototype }
  | .sortSwap a b => array.sortSwap a.toNat b.toNat

/-- The arrays that arise from the constructors by mutations. -/
inductive Reachable : ArrayObject → Prop
  | new (prototype : Option ObjectId) (policy : Policy) : Reachable (.new prototype policy)
  | ofValues {array : ArrayObject} {values : List Value} {prototype : Option ObjectId}
      {policy : Policy} (built : ArrayObject.ofValues values prototype policy = .ok array) :
      Reachable array
  | ofLength {array : ArrayObject} {length : Nat} {prototype : Option ObjectId}
      {policy : Policy} (built : ArrayObject.ofLength length prototype policy = .ok array) :
      Reachable array
  | mutated {array : ArrayObject} (before : Reachable array) (mutation : ArrayMutation) :
      Reachable (array.after mutation)

/-- A mutation of an own property that has no verdict is a fault, and has changed nothing. -/
theorem after_own (array : ArrayObject) (mutation : OwnMutation) (strict : Bool) :
    array.after (.own mutation strict) = array ∨
      ∃ verdict, array.mutate mutation = .ok (verdict, array.after (.own mutation strict)) := by
  rw [after, array.on_mutateOwn]
  exact Verdict.settle_snd strict array (array.mutate mutation)

theorem after_setLength (array : ArrayObject) (length : UInt32) (strict : Bool) :
    array.after (.setLength length strict) = (array.setLength length.toNat).2 := by
  rw [after, array.on_assignLength]
  rfl

namespace WellFormed

variable {array : ArrayObject}

theorem after (wellFormed : array.WellFormed) (mutation : ArrayMutation) :
    (array.after mutation).WellFormed := by
  cases mutation with
  | own mutation strict =>
    rcases array.after_own mutation strict with same | ⟨verdict, done⟩
    · rw [same]
      exact wellFormed
    · exact (edits_mutate done).wellFormed wellFormed
  | setLength length strict =>
    rw [array.after_setLength]
    exact wellFormed.setLength (Nat.le_of_lt_succ length.toNat_lt)
  | preventExtensions => exact wellFormed.withBase _
  | setPrototype prototype => exact wellFormed.withBase _
  | sortSwap a b => exact wellFormed.sortSwap a.toNat b.toNat

theorem elementCount_le (wellFormed : array.WellFormed) : array.elementCount ≤ array.length := by
  rw [← wellFormed.size_eq]
  exact AscendingMap.size_le fun _ member => wellFormed.within.lt_of_mem member

theorem slotsFrom_le (wellFormed : array.WellFormed) (target : Nat) :
    (array.elements.slotsFrom target).length ≤ array.elementCount ∧
      (array.elements.slotsFrom target).countP Slot.isDescribed ≤ array.describedCount := by
  obtain ⟨size, tally⟩ := wellFormed.counts_dropFrom target
  exact ⟨size ▸ Nat.le_add_left _ _, tally ▸ Nat.le_add_left _ _⟩

theorem blocker?_bounds (wellFormed : array.WellFormed) {target index : Nat}
    (blocked : array.blocker? target = some index) : target ≤ index ∧ index < array.length := by
  rw [wellFormed.blocker?_eq] at blocked
  obtain ⟨above, ⟨slot, found, _⟩, _⟩ := AscendingMap.lastFrom?_eq_some blocked
  rw [Elements.get?_toSparse] at found
  exact ⟨above, wellFormed.lt_length found⟩

end WellFormed

theorem Reachable.wellFormed {array : ArrayObject} (reachable : Reachable array) :
    array.WellFormed := by
  induction reachable with
  | new prototype policy => exact WellFormed.new prototype policy
  | ofValues built => exact .ofValues built
  | ofLength built => exact .ofLength built
  | mutated before mutation inductionHypothesis => exact inductionHypothesis.after mutation

/-- A reachable array is well formed.  Hence what is taken away from a count is never more than the
count, what is stored is found where it was stored, the length that an element forces on a shrink is
possible, and the search for such an element may be left out when nothing is described. -/
theorem Reachable.counts_and_bounds {array : ArrayObject} (reachable : Reachable array) :
    array.WellFormed ∧
      (array.describedCount ≤ array.elementCount ∧ array.elementCount ≤ array.length) ∧
      (∀ target, (array.elements.slotsFrom target).length ≤ array.elementCount ∧
        (array.elements.slotsFrom target).countP Slot.isDescribed ≤ array.describedCount) ∧
      (∀ index slot, array.element? index = some slot →
        1 ≤ array.elementCount ∧ slot.isDescribed.toNat ≤ array.describedCount) ∧
      (∀ index slot, (array.store index slot).element? index = some slot) ∧
      (∀ target index, array.blocker? target = some index →
        target ≤ index ∧ index + 1 ≤ array.length ∧ index + 1 ≤ maxArrayLength) ∧
      (array.describedCount = 0 →
        (∀ index slot, array.element? index = some slot → slot.isConfigurable = true) ∧
          ∀ target, array.elements.lastFixedFrom? target array.length = none) := by
  have wellFormed := reachable.wellFormed
  refine ⟨wellFormed, ⟨wellFormed.describedCount_le, wellFormed.elementCount_le⟩,
    wellFormed.slotsFrom_le, fun _ _ found => wellFormed.counted found, ?_, ?_, ?_⟩
  · intro index slot
    rw [element?_store, if_pos rfl]
  · intro target index blocked
    obtain ⟨above, below⟩ := wellFormed.blocker?_bounds blocked
    exact ⟨above, below, Nat.le_trans below wellFormed.length_le⟩
  · intro undescribed
    have configurable : ∀ index slot, array.element? index = some slot →
        slot.isConfigurable = true :=
      fun _ _ found => wellFormed.isConfigurable_of_describedCount_eq_zero undescribed found
    refine ⟨configurable, ?_⟩
    intro target
    rw [wellFormed.within.lastFixedFrom?, AscendingMap.lastFrom?_eq_none_iff]
    intro index slot _ found
    rw [Elements.get?_toSparse] at found
    rw [configurable index slot found]
    rfl

/-- An array of three elements, the middle one of which must stay, after an attempt to empty it. -/
def partlyShrunk : ArrayObject :=
  (((new none {}).after (.own (.add (.index 2) .null) true)).after
    (.own (.define (.index 1) { value := some (.boolean true) }) true)).after (.setLength 0 true)

theorem partlyShrunk_counts :
    Reachable partlyShrunk ∧ partlyShrunk.length = 2 ∧ partlyShrunk.elementCount = 1 ∧
      partlyShrunk.describedCount = 1 ∧ partlyShrunk.blocker? 0 = some 1 ∧ 1 + 1 ≤ maxArrayLength :=
  have reachable : Reachable partlyShrunk := .mutated (.mutated (.mutated (.new none {}) _) _) _
  ⟨reachable, rfl, rfl, rfl, rfl, (reachable.counts_and_bounds.2.2.2.2.2.1 0 1 rfl).2.2⟩

end ArrayObject

end ObjectModel
