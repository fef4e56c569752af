import ObjectModel.Proofs.Array.Refinement
import ObjectModel.Proofs.Object.Frame
import ObjectModel.Proofs.Object.Listing

/-!
# What a mutation of an array leaves alone

A mutation at an index leaves all other elements where they are, whatever it does to the storage,
and moves the length only to cover the index.  A mutation of the length drops the elements that it
does not cover any more.  What all this comes to is read off the reference, which knows no storage.
-/

namespace ObjectModel

/-- Whether a key is that of an element below a length, or of no element. -/
def Key.isBelow (length : Nat) : Key → Bool
  | .index i => i.toNat < length
  | .named _ => true

namespace ReferenceArray

variable {array next : ReferenceArray} {key : Key} {stored : Prop} {verdict : Verdict} {i : UInt32}
  {text : Text}

/-- What may become of the elements and the length. -/
inductive Alters (key : Key) (stored : Prop) (array next : ReferenceArray) : Prop
  | kept (elements : next.elements = array.elements) (length : next.length = array.length)
      (writable : next.lengthWritable = array.lengthWritable)
      (unstored : ∀ i, key = .index i → ¬stored)
  | placed {i : UInt32} {slot : Slot} (about : key = .index i)
      (elements : next.elements = array.elements.insert i.toNat slot)
      (length : next.length = max array.length (i.toNat + 1))
      (writable : next.lengthWritable = array.lengthWritable) (isStored : stored)
  | removed {i : UInt32} (about : key = .index i)
      (elements : next.elements = array.elements.erase i.toNat)
      (length : next.length = array.length)
      (writable : next.lengthWritable = array.lengthWritable) (unstored : ¬stored)
  | assigned (about : key = .length)
      (elements : next.elements = array.elements.filterIndex fun index => index < next.length)

/-- Whether all elements are below the length. -/
def Within (array : ReferenceArray) : Prop :=
  ∀ index slot, array.elements.get? index = some slot → index < array.length

theorem Within.filterIndex (within : array.Within) :
    (array.elements.filterIndex fun index => index < array.length) = array.elements := by
  apply AscendingMap.ext_get?
  intro index
  rw [AscendingMap.get?_filterIndex]
  split
  next => rfl
  next beyond =>
    symm
    rw [Option.eq_none_iff_forall_ne_some]
    exact fun slot found => beyond (decide_eq_true (within index slot found))

theorem Alters.erase_elements (alters : Alters (.index i) stored array next) :
    next.elements.erase i.toNat = array.elements.erase i.toNat := by
  cases alters with
  | kept elements => rw [elements]
  | placed about elements =>
    cases about
    rw [elements, AscendingMap.erase_insert]
  | removed about elements =>
    cases about
    rw [elements, AscendingMap.erase_erase]
  | assigned about => cases about

theorem Alters.filterIndex_elements (alters : Alters (.named text) stored array next)
    (within : array.Within) :
    next.elements = array.elements.filterIndex fun index => index < next.length := by
  cases alters with
  | kept elements length => rw [elements, length, within.filterIndex]
  | placed about => cases about
  | removed about => cases about
  | assigned _ elements => exact elements

theorem Alters.elements_eq (alters : Alters (.named text) stored array next)
    (notLength : Key.named text ≠ .length) : next.elements = array.elements := by
  cases alters with
  | kept elements => exact elements
  | placed about => cases about
  | removed about => cases about
  | assigned about => exact absurd about notLength

theorem alters_refl (unstored : ∀ i, key = .index i → ¬stored) : Alters key stored array array :=
  .kept rfl rfl rfl unstored

theorem alters_refused {why : Refusal} : Alters key (Verdict.refused why = .accepted) array array :=
  alters_refl fun _ _ => nofun

theorem alters_place {slot : Slot}
    (done : array.place i.toNat slot = .ok (verdict, next)) :
    Alters (.index i) (verdict = .accepted) array next := by
  simp only [place] at done
  split at done
  next inside =>
    cases done
    exact .placed rfl rfl (by simp only; omega) rfl rfl
  next outside =>
    split at done
    next => cases done
    next =>
      split at done
      next =>
        cases done
        exact .placed rfl rfl (by simp only; omega) rfl rfl
      next =>
        cases done
        exact alters_refused

theorem alters_add {value : Value}
    (done : array.add (.index i) value = .ok (verdict, next)) :
    Alters (.index i) (verdict = .accepted) array next := by
  simp only [add] at done
  split at done
  next => exact alters_place done
  next =>
    cases done
    exact alters_refused

theorem alters_write (within : array.Within) {value : Value}
    (done : array.write (.index i) value = .ok (verdict, next)) :
    Alters (.index i) (verdict = .accepted) array next := by
  simp only [write] at done
  split at done
  next => exact alters_add done
  next slot found =>
    have inside := within _ _ found
    split at done
    next =>
      cases done
      exact .placed rfl rfl (by simp only; omega) rfl rfl
    next =>
      cases done
      exact alters_refused

theorem alters_define {request : Request}
    (done : array.define (.index i) request = .ok (verdict, next)) :
    Alters (.index i) (verdict = .accepted) array next := by
  simp only [define] at done
  split at done
  next => cases done
  next => exact alters_place done
  next =>
    cases done
    exact alters_refused

theorem alters_delete (array : ReferenceArray) (i : UInt32) :
    Alters (.index i) False array (array.delete (.index i)).2 := by
  simp only [delete]
  split
  next => exact alters_refl fun _ _ => id
  next =>
    split
    next => exact .removed rfl rfl rfl rfl id
    next => exact alters_refl fun _ _ => id

theorem elements_setLength (within : array.Within) (length : Nat) :
    (array.setLength length).2.elements =
      array.elements.filterIndex fun index => index < (array.setLength length).2.length := by
  simp only [setLength]
  split
  next => exact within.filterIndex.symm
  next =>
    split
    next => split <;> rfl
    next => exact within.filterIndex.symm

theorem elements_defineLength (within : array.Within) {request : Request}
    (done : array.defineLength request = .ok (verdict, next)) :
    next.elements = array.elements.filterIndex fun index => index < next.length := by
  simp only [defineLength] at done
  split at done
  next =>
    cases done
    exact within.filterIndex.symm
  next =>
    split at done
    next =>
      cases done
      exact within.filterIndex.symm
    next =>
      obtain ⟨length, _, defined⟩ := exists_of_map_eq_ok done
      cases defined
      exact elements_setLength within length

/-- A mutation that is not at an index moves no elements, but for those that the length drops. -/
theorem alters_mutate_named (within : array.Within) {mutation : OwnMutation}
    (about : mutation.key = .named text) (done : array.mutate mutation = .ok (verdict, next)) :
    Alters (.named text) stored array next := by
  have unstored : ∀ i, Key.named text = .index i → ¬stored := nofun
  have rebased {base : OrdinaryObject} (same : next = { array with base }) :
      Alters (.named text) stored array next := by
    rw [same]
    exact .kept rfl rfl rfl unstored
  cases mutation with
  | write key value =>
    cases about
    simp only [mutate, write] at done
    split at done
    next isLength =>
      obtain ⟨length, _, resized⟩ := exists_of_map_eq_ok done
      have assigned := elements_setLength within length
      rw [resized] at assigned
      exact .assigned (Key.eq_length isLength) assigned
    next =>
      cases done
      exact rebased rfl
  | add key value =>
    cases about
    cases done
    exact rebased rfl
  | define key request =>
    cases about
    simp only [mutate, define] at done
    split at done
    next isLength => exact .assigned (Key.eq_length isLength) (elements_defineLength within done)
    next =>
      obtain ⟨_, _, same⟩ := exists_of_map_eq_ok done
      cases same
      exact rebased rfl
  | delete key =>
    cases about
    simp only [mutate, delete] at done
    split at done
    next =>
      cases done
      exact alters_refl unstored
    next =>
      cases done
      exact rebased rfl

end ReferenceArray

/-- Whether a mutation puts a property at its key. -/
def OwnMutation.stores : OwnMutation → Bool
  | .write .. | .add .. | .define .. => true
  | .delete _ => false

theorem ReferenceArray.alters_mutate {array next : ReferenceArray} {verdict : Verdict}
    (within : array.Within) {mutation : OwnMutation}
    (done : array.mutate mutation = .ok (verdict, next)) :
    Alters mutation.key (mutation.stores = true ∧ verdict = .accepted) array next := by
  have accepted {key : Key} (alters : Alters key (verdict = .accepted) array next) :
      Alters key (true = true ∧ verdict = .accepted) array next := by
    rwa [eq_self, true_and]
  cases about : mutation.key with
  | named text => exact alters_mutate_named within about done
  | index i =>
    cases mutation with
    | write key value =>
      cases about
      exact accepted (alters_write within done)
    | add key value =>
      cases about
      exact accepted (alters_add done)
    | define key request =>
      cases about
      exact accepted (alters_define done)
    | delete key =>
      cases about
      have alters := array.alters_delete i
      rw [Except.ok.inj done] at alters
      have never : ¬((OwnMutation.delete (.index i)).stores = true ∧ verdict = .accepted) := nofun
      rwa [← eq_false never] at alters

namespace ArrayObject

variable {array next : ArrayObject} {key : Key} {stored : Prop} {verdict : Verdict}

/-- What a change at one key leaves of an array.

All other properties are kept and keep their places, but for the elements that the length drops when
it is what changes.  The length moves on its own only to cover an index where something is
stored. -/
structure Frames (key : Key) (stored : Prop) (array next : ArrayObject) : Prop where
  property : ∀ other, other ≠ key → other ≠ .length →
    (key = .length → other.isBelow next.length = true) → next.getOwn other = array.getOwn other
  dropped : key = .length → ∀ i : UInt32, next.length ≤ i.toNat → next.getOwn (.index i) = none
  order : (next.ownKeys.filter fun entry => entry.1 ≠ key) = array.ownKeys.filter fun entry =>
    entry.1 ≠ key ∧ (key = .length → entry.1.isBelow next.length = true)
  writable : key ≠ .length → next.lengthWritable = array.lengthWritable
  covers : ∀ i, key = .index i → stored → next.length = max array.length (i.toNat + 1)
  length : key ≠ .length → (∀ i, key = .index i → ¬stored) → next.length = array.length

def elementKeys (elements : AscendingMap Slot) : List (Key × Bool) :=
  elements.entries.map fun entry => (Key.index (UInt32.ofNat entry.1), entry.2.isEnumerable)

theorem ownKeys_eq_append (array : ArrayObject) :
    array.ownKeys =
      elementKeys array.reference.elements ++ (Key.length, false) :: array.base.ownKeys :=
  array.reference_ownKeys.symm

theorem WellFormed.reference_within (wellFormed : array.WellFormed) : array.reference.Within := by
  intro index slot found
  exact wellFormed.lt_length ((Elements.get?_toSparse _ _).symm.trans found)

theorem WellFormed.index_lt (wellFormed : array.WellFormed) {entry : Nat × Slot}
    (member : entry ∈ array.reference.elements.entries) : entry.1 < UInt32.size := by
  have below := wellFormed.reference_within _ _ (AscendingMap.get?_eq_some_iff.mpr member)
  exact Nat.lt_of_lt_of_le below (Nat.le_succ_of_le wellFormed.length_le)

theorem filter_elementKeys_index (wellFormed : array.WellFormed) (i : UInt32) :
    ((elementKeys array.reference.elements).filter fun entry => entry.1 ≠ .index i) =
      elementKeys (array.reference.elements.erase i.toNat) := by
  rw [elementKeys, List.filter_map]
  apply congrArg (List.map _)
  apply List.filter_congr
  intro entry member
  simp only [Function.comp, ne_eq, index_ofNat_eq_iff (wellFormed.index_lt member)]

theorem filter_elementKeys_below (wellFormed : array.WellFormed) (length : Nat) :
    ((elementKeys array.reference.elements).filter fun entry => entry.1.isBelow length) =
      elementKeys (array.reference.elements.filterIndex fun index => index < length) := by
  rw [elementKeys, List.filter_map]
  apply congrArg (List.map _)
  apply List.filter_congr
  intro entry member
  simp only [Function.comp, Key.isBelow, UInt32.toNat_ofNat_of_lt' (wellFormed.index_lt member)]

theorem filter_elementKeys_named (elements : AscendingMap Slot) (text : Text) :
    ((elementKeys elements).filter fun entry => entry.1 ≠ .named text) = elementKeys elements := by
  apply List.filter_eq_self.mpr
  intro entry member
  obtain ⟨_, _, rfl⟩ := List.mem_map.mp member
  rfl

theorem getOwn_index (array : ArrayObject) (i : UInt32) :
    array.getOwn (.index i) = array.reference.elements.get? i.toNat :=
  (Elements.get?_toSparse _ _).symm

theorem getOwn_named (array : ArrayObject) {text : Text} (notLength : Key.named text ≠ .length) :
    array.getOwn (.named text) = array.base.getOwn (.named text) := by
  have unlike : (Key.named text).isLength = false :=
    Bool.eq_false_iff.mpr fun isLength => notLength (Key.eq_length isLength)
  simp only [getOwn, unlike, Bool.false_eq_true, if_false]

section Order

variable {i : UInt32} {text : Text}

theorem order_index (wellFormed : array.WellFormed) (wellFormedNext : next.WellFormed)
    (alters : array.reference.Alters (.index i) stored next.reference)
    (base : array.base.view.Frames (.index i) next.base.view) :
    (next.ownKeys.filter fun entry => entry.1 ≠ .index i) = array.ownKeys.filter fun entry =>
      entry.1 ≠ .index i ∧ (Key.index i = .length → entry.1.isBelow next.length = true) := by
  have unassigned : Key.index i ≠ .length := nofun
  simp only [unassigned, false_implies, and_true, ownKeys_eq_append, List.filter_append]
  congr 1
  · rw [filter_elementKeys_index wellFormedNext, filter_elementKeys_index wellFormed,
      alters.erase_elements]
  · exact congrArg (List.cons _) base.order

theorem order_named (notLength : Key.named text ≠ .length)
    (alters : array.reference.Alters (.named text) stored next.reference)
    (base : array.base.view.Frames (.named text) next.base.view) :
    (next.ownKeys.filter fun entry => entry.1 ≠ .named text) = array.ownKeys.filter fun entry =>
      entry.1 ≠ .named text ∧ (Key.named text = .length → entry.1.isBelow next.length = true) := by
  simp only [notLength, false_implies, and_true, ownKeys_eq_append, List.filter_append,
    alters.elements_eq notLength]
  congr 1
  have apart : Key.length ≠ .named text := Ne.symm notLength
  simp only [List.filter_cons, apart, ne_eq, not_false_eq_true, decide_true, if_true]
  exact congrArg (List.cons _) base.order

theorem order_length (wellFormed : array.WellFormed)
    (unindexed : ∀ entry ∈ array.base.ownKeys, entry.1.isIndex = false)
    (alters : array.reference.Alters .length stored next.reference)
    (base : array.base.view.Frames .length next.base.view) :
    (next.ownKeys.filter fun entry => entry.1 ≠ .length) = array.ownKeys.filter fun entry =>
      entry.1 ≠ .length ∧ (Key.length = .length → entry.1.isBelow next.length = true) := by
  have below : ∀ entry ∈ array.base.ownKeys, entry.1.isBelow next.length = true := by
    rintro ⟨i | text, enumerable⟩ member
    · cases unindexed _ member
    · rfl
  have elements : elementKeys next.reference.elements =
      (elementKeys array.reference.elements).filter fun entry =>
        entry.1 ≠ .length ∧ entry.1.isBelow next.length = true := by
    rw [alters.filterIndex_elements wellFormed.reference_within]
    refine Eq.trans (filter_elementKeys_below wellFormed next.length).symm ?_
    refine List.filter_congr fun entry member => ?_
    obtain ⟨_, _, rfl⟩ := List.mem_map.mp member
    have unlike (i : UInt32) : Key.index i ≠ .length := nofun
    simp only [unlike, ne_eq, not_false_eq_true, true_and, Bool.decide_eq_true]
  have further : (next.base.ownKeys.filter fun entry => entry.1 ≠ .length) =
      array.base.ownKeys.filter fun entry =>
        entry.1 ≠ .length ∧ entry.1.isBelow next.length = true := by
    refine Eq.trans base.order (List.filter_congr fun entry member => ?_)
    simp [below entry member]
  have kept : ((elementKeys next.reference.elements).filter fun entry => entry.1 ≠ .length) =
      elementKeys next.reference.elements := filter_elementKeys_named _ _
  simp only [true_implies, ownKeys_eq_append, List.filter_append]
  rw [kept, elements]
  exact congrArg (List.append _) further

end Order

/-- What becomes of the elements and the length, and of the further properties, is all there is. -/
theorem frames_of_alters (wellFormed : array.WellFormed) (wellFormedNext : next.WellFormed)
    (unindexed : ∀ entry ∈ array.base.ownKeys, entry.1.isIndex = false)
    (alters : array.reference.Alters key stored next.reference)
    (base : array.base.view.Frames key next.base.view) : array.Frames key stored next where
  property other different notLength below := by
    cases other with
    | named text =>
      rw [getOwn_named _ notLength, getOwn_named _ notLength]
      exact base.property _ different
    | index j =>
      have apart {i : UInt32} (about : key = .index i) : j.toNat ≠ i.toNat := by
        intro same
        rw [about, UInt32.toNat_inj.mp same] at different
        exact different rfl
      rw [getOwn_index, getOwn_index]
      cases alters with
      | kept elements => rw [elements]
      | placed about elements => rw [elements, AscendingMap.get?_insert, if_neg (apart about)]
      | removed about elements => rw [elements, AscendingMap.get?_erase, if_neg (apart about)]
      | assigned about elements =>
        rw [elements, AscendingMap.get?_filterIndex]
        exact if_pos (below about)
  dropped _ i beyond := by
    rw [getOwn_index, Option.eq_none_iff_forall_ne_some]
    intro slot found
    exact Nat.not_lt_of_le beyond (wellFormedNext.reference_within _ _ found)
  order := by
    cases key with
    | index i => exact order_index wellFormed wellFormedNext alters base
    | named text =>
      by_cases isLength : Key.named text = .length
      · rw [isLength] at alters base ⊢
        exact order_length wellFormed unindexed alters base
      · exact order_named isLength alters base
  writable different := by
    cases alters with
    | kept _ _ writable => exact writable
    | placed _ _ _ writable _ => exact writable
    | removed _ _ _ writable => exact writable
    | assigned about => exact absurd about different
  covers i about isStored := by
    cases alters with
    | kept _ _ _ unstored => exact absurd isStored (unstored i about)
    | placed other _ length =>
      cases about.symm.trans other
      exact length
    | removed _ _ _ _ unstored => exact absurd isStored unstored
    | assigned other => cases about.symm.trans other
  length different unstored := by
    cases alters with
    | kept _ length => exact length
    | placed about _ _ _ isStored => exact absurd isStored (unstored _ about)
    | removed _ _ length => exact length
    | assigned about => exact absurd about different

theorem frames_mutate (wellFormed : array.WellFormed)
    (unindexed : ∀ entry ∈ array.base.ownKeys, entry.1.isIndex = false) {mutation : OwnMutation}
    (done : array.mutate mutation = .ok (verdict, next)) :
    array.Frames mutation.key (mutation.stores = true ∧ verdict = .accepted) next := by
  have referenceDone : array.reference.mutate mutation = .ok (verdict, next.reference) := by
    rw [← wellFormed.reference_mutate, done]
    rfl
  exact frames_of_alters wellFormed ((edits_mutate done).wellFormed wellFormed) unindexed
    (ReferenceArray.alters_mutate wellFormed.reference_within referenceDone)
    (rebases_named done).frames

theorem frames_withBase {base : OrdinaryObject} (frames : array.base.view.Frames key base.view)
    (wellFormed : array.WellFormed)
    (unindexed : ∀ entry ∈ array.base.ownKeys, entry.1.isIndex = false)
    (unstored : ∀ i, key = .index i → ¬stored) : array.Frames key stored { array with base } :=
  frames_of_alters wellFormed (wellFormed.withBase base) unindexed (.kept rfl rfl rfl unstored)
    frames

end ArrayObject

end ObjectModel
