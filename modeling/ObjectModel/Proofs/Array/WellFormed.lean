import ObjectModel.Proofs.Verdict.Object
import ObjectModel.Proofs.Array.Storage

/-!
# Well-formed arrays

The counts of an array are those of its elements, and its elements lie below its length.  Whatever
is done to an array, it stays well formed.
-/

namespace ObjectModel.ArrayObject

@[simp]
theorem toSparse_store (array : ArrayObject) (index : Nat) (slot : Slot) :
    (array.store index slot).elements.toSparse = array.elements.toSparse.insert index slot := by
  simp only [store, Elements.toSparse_put, Elements.toSparse_clear, AscendingMap.insert_erase]

/-- The counts agree with the elements, which lie below a possible length. -/
structure WellFormed (array : ArrayObject) : Prop where
  length_le : array.length ≤ maxArrayLength
  within : array.elements.Within array.length
  elementCount_eq : array.elementCount = array.elements.entries.length
  describedCount_eq :
    array.describedCount = array.elements.entries.countP fun entry => entry.2.isDescribed

namespace WellFormed

variable {array : ArrayObject}

theorem size_eq (wellFormed : array.WellFormed) :
    array.elements.toSparse.size = array.elementCount := by
  rw [wellFormed.elementCount_eq, AscendingMap.size, Elements.entries_toSparse]

theorem tally_eq (wellFormed : array.WellFormed) :
    array.elements.toSparse.tally Slot.isDescribed = array.describedCount := by
  rw [wellFormed.describedCount_eq, AscendingMap.tally, AscendingMap.values,
    Elements.entries_toSparse, List.countP_map]
  rfl

theorem of_tally (length_le : array.length ≤ maxArrayLength)
    (within : array.elements.Within array.length)
    (size : array.elements.toSparse.size = array.elementCount)
    (tally : array.elements.toSparse.tally Slot.isDescribed = array.describedCount) :
    array.WellFormed where
  length_le := length_le
  within := within
  elementCount_eq := by rw [← size, AscendingMap.size, Elements.entries_toSparse]
  describedCount_eq := by
    rw [← tally, AscendingMap.tally, AscendingMap.values, Elements.entries_toSparse,
      List.countP_map]
    rfl

theorem lt_length (wellFormed : array.WellFormed) {index : Nat} {slot : Slot}
    (found : array.element? index = some slot) : index < array.length :=
  wellFormed.within.lt_of_get? found

theorem describedCount_le (wellFormed : array.WellFormed) :
    array.describedCount ≤ array.elementCount := by
  rw [← wellFormed.size_eq, ← wellFormed.tally_eq]
  exact AscendingMap.tally_le_size _ _

theorem counted (wellFormed : array.WellFormed) {index : Nat} {slot : Slot}
    (found : array.element? index = some slot) :
    1 ≤ array.elementCount ∧ slot.isDescribed.toNat ≤ array.describedCount := by
  have stored : array.elements.toSparse.get? index = some slot := by
    rw [Elements.get?_toSparse]
    exact found
  have size := array.elements.toSparse.tally_erase_add (fun _ => true) index
  have tally := array.elements.toSparse.tally_erase_add Slot.isDescribed index
  rw [AscendingMap.tally_true, AscendingMap.tally_true, wellFormed.size_eq, stored] at size
  rw [wellFormed.tally_eq, stored] at tally
  simp only [Option.any_some, Bool.toNat_true] at size tally
  omega

theorem counts_dropFrom (wellFormed : array.WellFormed) (target : Nat) :
    (array.elements.dropFrom array.policy target).toSparse.size +
        (array.elements.slotsFrom target).length = array.elementCount ∧
      (array.elements.dropFrom array.policy target).toSparse.tally Slot.isDescribed +
        (array.elements.slotsFrom target).countP Slot.isDescribed = array.describedCount := by
  have complement :
      (fun index => !decide (index < target)) = fun index => decide (target ≤ index) :=
    funext fun index => by simp only [← decide_not, Nat.not_lt]
  have split := fun holds => array.elements.toSparse.tally_filterIndex_add holds
    fun index => decide (index < target)
  have size := split fun _ => true
  have tally := split Slot.isDescribed
  rw [complement, AscendingMap.tally_true, AscendingMap.tally_true, AscendingMap.tally_true,
    wellFormed.size_eq] at size
  rw [complement, wellFormed.tally_eq] at tally
  rw [Elements.slotsFrom_eq, Elements.toSparse_dropFrom]
  refine ⟨?_, tally⟩
  rw [AscendingMap.values, List.length_map]
  exact size

/-- Nothing described is left to stop a shrinking array. -/
theorem isConfigurable_of_describedCount_eq_zero (wellFormed : array.WellFormed)
    (none : array.describedCount = 0) {index : Nat} {slot : Slot}
    (found : array.element? index = some slot) : slot.isConfigurable = true := by
  have counted := (wellFormed.counted found).2
  cases slot with
  | bare value => rfl
  | described descriptor =>
    rw [none] at counted
    exact absurd counted (Nat.not_succ_le_zero 0)

/-- The search for an element that must stay may look at all elements, whatever the counts. -/
theorem blocker?_eq (wellFormed : array.WellFormed) (target : Nat) :
    array.blocker? target =
      array.elements.toSparse.lastFrom? (fun slot => !slot.isConfigurable) target := by
  simp only [blocker?]
  split
  next => exact wellFormed.within.lastFixedFrom? target
  next unsearched =>
    symm
    rw [AscendingMap.lastFrom?_eq_none_iff]
    intro index slot above found
    rw [Elements.get?_toSparse] at found
    have below : index < array.length := wellFormed.lt_length found
    have undescribed : array.describedCount = 0 := by omega
    rw [wellFormed.isConfigurable_of_describedCount_eq_zero undescribed found]
    rfl

theorem new (prototype : Option ObjectId) (policy : Policy) :
    (ArrayObject.new prototype policy).WellFormed where
  length_le := Nat.zero_le _
  within := Nat.le_refl 0
  elementCount_eq := rfl
  describedCount_eq := rfl

theorem ofValues {values : List Value} {prototype : Option ObjectId} {policy : Policy}
    (built : ArrayObject.ofValues values prototype policy = .ok array) : array.WellFormed := by
  simp only [ArrayObject.ofValues] at built
  split at built
  next short =>
    cases built
    have bare : ∀ entry ∈ populated 0 (values.map fun value => some (Slot.bare value)),
        ¬entry.2.isDescribed = true := by
      intro entry member
      have slot : entry.2 ∈ (populated 0 (values.map fun value => some (Slot.bare value))).map
          Prod.snd := List.mem_map_of_mem member
      rw [slots_populated] at slot
      obtain ⟨value, _, same⟩ : ∃ value ∈ values, Slot.bare value = entry.2 := by
        simpa using slot
      rw [← same]
      exact Bool.false_ne_true
    have full : ((populated 0 (values.map fun value => some (Slot.bare value))).map
        Prod.snd).length = values.length := by
      rw [slots_populated, List.filterMap_map]
      simp
    rw [List.length_map] at full
    exact
      { length_le := short
        within := Nat.le_of_eq (List.length_map _)
        elementCount_eq := full.symm
        describedCount_eq := (List.countP_eq_zero.mpr bare).symm }
  next => cases built

theorem ofLength {length : Nat} {prototype : Option ObjectId} {policy : Policy}
    (built : ArrayObject.ofLength length prototype policy = .ok array) : array.WellFormed := by
  simp only [ArrayObject.ofLength] at built
  split at built
  next short =>
    cases built
    exact
      { length_le := short
        within := Nat.zero_le length
        elementCount_eq := rfl
        describedCount_eq := rfl }
  next => cases built

theorem congr (wellFormed : array.WellFormed) {other : ArrayObject}
    (elements : other.elements = array.elements) (length : other.length = array.length)
    (elementCount : other.elementCount = array.elementCount)
    (describedCount : other.describedCount = array.describedCount) : other.WellFormed where
  length_le := length ▸ wellFormed.length_le
  within := by
    rw [elements, length]
    exact wellFormed.within
  elementCount_eq := by rw [elements, elementCount, wellFormed.elementCount_eq]
  describedCount_eq := by rw [elements, describedCount, wellFormed.describedCount_eq]

theorem lengthen (wellFormed : array.WellFormed) {length : Nat} (longer : array.length ≤ length)
    (possible : length ≤ maxArrayLength) : ({ array with length } : ArrayObject).WellFormed where
  length_le := possible
  within := wellFormed.within.mono longer
  elementCount_eq := wellFormed.elementCount_eq
  describedCount_eq := wellFormed.describedCount_eq

theorem shorten (wellFormed : array.WellFormed) {length : Nat}
    (possible : length ≤ maxArrayLength) :
    ({ array.dropFrom length with length } : ArrayObject).WellFormed := by
  obtain ⟨size, tally⟩ := wellFormed.counts_dropFrom length
  refine of_tally possible (wellFormed.within.dropFrom array.policy length) ?_ ?_
  · exact (Nat.sub_eq_of_eq_add size.symm).symm
  · exact (Nat.sub_eq_of_eq_add tally.symm).symm

theorem truncate (wellFormed : array.WellFormed) {target : Nat}
    (possible : target ≤ maxArrayLength) : (array.truncate target).2.WellFormed := by
  simp only [ArrayObject.truncate]
  split
  next index blocked =>
    rw [wellFormed.blocker?_eq] at blocked
    obtain ⟨above, ⟨slot, found, _⟩, _⟩ := AscendingMap.lastFrom?_eq_some blocked
    rw [Elements.get?_toSparse] at found
    have below : index < array.length := wellFormed.lt_length found
    rw [if_pos (Nat.lt_of_le_of_lt above below)]
    exact wellFormed.shorten (Nat.le_trans below wellFormed.length_le)
  next unblocked =>
    split
    next shorter => exact wellFormed.shorten possible
    next notShorter => exact wellFormed.lengthen (Nat.le_of_not_lt notShorter) possible

theorem setLength (wellFormed : array.WellFormed) {length : Nat}
    (possible : length ≤ maxArrayLength) : (array.setLength length).2.WellFormed := by
  simp only [ArrayObject.setLength]
  split
  next => exact wellFormed
  next =>
    split
    next => exact wellFormed.truncate possible
    next => exact wellFormed

theorem store (wellFormed : array.WellFormed) {index : Nat} (inside : index < array.length)
    (slot : Slot) : (array.store index slot).WellFormed := by
  have size := array.elements.toSparse.tally_insert_add (fun _ => true) index slot
  have tally := array.elements.toSparse.tally_insert_add Slot.isDescribed index slot
  rw [AscendingMap.tally_true, AscendingMap.tally_true, wellFormed.size_eq,
    Elements.get?_toSparse] at size
  rw [wellFormed.tally_eq, Elements.get?_toSparse] at tally
  refine of_tally wellFormed.length_le
    ((wellFormed.within.clear index).put inside array.policy array.elementCount slot) ?_ ?_
  · rw [toSparse_store]
    by_cases present : (array.element? index).isSome
    · have count : (array.store index slot).elementCount = array.elementCount := if_pos present
      obtain ⟨old, found⟩ := Option.isSome_iff_exists.mp present
      rw [element?] at found
      rw [found] at size
      rw [count]
      exact Nat.add_right_cancel size
    · have count : (array.store index slot).elementCount = array.elementCount + 1 :=
        if_neg present
      rw [element?] at present
      rw [Option.not_isSome_iff_eq_none.mp present] at size
      rw [count]
      exact size
  · have removed := array.elements.toSparse.tally_erase_add Slot.isDescribed index
    rw [wellFormed.tally_eq, Elements.get?_toSparse] at removed
    rw [toSparse_store]
    simp only [ArrayObject.store, element?]
    omega

theorem modify (wellFormed : array.WellFormed) {index : Nat} {old slot : Slot}
    (found : array.element? index = some old) (sameForm : slot.isDescribed = old.isDescribed) :
    ({ array with elements := array.elements.modify index slot } : ArrayObject).WellFormed := by
  have present : (array.elements.get? index).isSome := Option.isSome_of_eq_some found
  have stored : array.elements.toSparse.get? index = some old := by
    rw [Elements.get?_toSparse]
    exact found
  have size := array.elements.toSparse.tally_insert_add (fun _ => true) index slot
  have tally := array.elements.toSparse.tally_insert_add Slot.isDescribed index slot
  rw [AscendingMap.tally_true, AscendingMap.tally_true, wellFormed.size_eq, stored,
    Option.any_some] at size
  rw [wellFormed.tally_eq, stored, Option.any_some, sameForm] at tally
  refine of_tally wellFormed.length_le (wellFormed.within.modify present slot) ?_ ?_
  · rw [Elements.toSparse_modify present]
    exact Nat.add_right_cancel size
  · rw [Elements.toSparse_modify present]
    exact Nat.add_right_cancel tally

theorem remove (wellFormed : array.WellFormed) {index : Nat} {slot : Slot}
    (found : array.element? index = some slot) :
    ({ array with
        elements := array.elements.clear index
        elementCount := array.elementCount - 1
        describedCount := array.describedCount - slot.isDescribed.toNat } :
      ArrayObject).WellFormed := by
  have stored : array.elements.toSparse.get? index = some slot := by
    rw [Elements.get?_toSparse]
    exact found
  have size := array.elements.toSparse.tally_erase_add (fun _ => true) index
  have tally := array.elements.toSparse.tally_erase_add Slot.isDescribed index
  rw [AscendingMap.tally_true, AscendingMap.tally_true, wellFormed.size_eq, stored,
    Option.any_some] at size
  rw [wellFormed.tally_eq, stored, Option.any_some] at tally
  refine of_tally wellFormed.length_le (wellFormed.within.clear index) ?_ ?_
  · rw [Elements.toSparse_clear]
    exact (Nat.sub_eq_of_eq_add size.symm).symm
  · rw [Elements.toSparse_clear]
    exact (Nat.sub_eq_of_eq_add tally.symm).symm

theorem sortSwap (wellFormed : array.WellFormed) (a b : Nat) :
    (array.sortSwap a b).WellFormed := by
  have permuted := array.elements.values_sortSwap a b
  have size := permuted.countP_eq fun _ => true
  have tally := permuted.countP_eq Slot.isDescribed
  refine of_tally wellFormed.length_le (wellFormed.within.sortSwap a b) ?_ ?_
  · rw [← AscendingMap.tally_true, ArrayObject.sortSwap, AscendingMap.tally, size]
    exact (AscendingMap.tally_true _).trans wellFormed.size_eq
  · rw [ArrayObject.sortSwap, AscendingMap.tally, tally]
    exact wellFormed.tally_eq

end WellFormed

end ObjectModel.ArrayObject
