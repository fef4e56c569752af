import ObjectModel.Proofs.Array.Sparse
import ObjectModel.Proofs.Object.Atomicity

/-!
# The one mutation of an array that may happen in part

A shrinking array keeps the elements that are not configurable: the shrink stops just above the
highest of them and is refused, and the elements above it are gone.  A definition that was going to
make the length read-only does so all the same.  Every other mutation happens entirely or not at
all.
-/

namespace ObjectModel

/-- The value that the length of an array is to become by a definition; one that asks for attributes
that the length never has is refused as a whole. -/
def Request.lengthValue? (request : Request) : Option Value :=
  if request.configurable == some true || request.enumerable == some true || request.isAccessor then
    none
  else request.value

namespace OwnMutation

/-- The value that the length of an array is to become. -/
def lengthValue? : OwnMutation → Option Value
  | .write key value => if key.isLength then some value else none
  | .define key request => if key.isLength then request.lengthValue? else none
  | .add .. | .delete _ => none

/-- The length that an array is to get. -/
def requestedLength? (mutation : OwnMutation) : Option Nat :=
  mutation.lengthValue?.bind fun value => (toArrayLength value).toOption

/-- Whether the length of an array is to become read-only. -/
def freezes : OwnMutation → Bool
  | .define _ request => request.writable == some false
  | .write .. | .add .. | .delete _ => false

end OwnMutation

namespace ArrayObject

variable {array : ArrayObject} {target index : Nat}

/-- Whether an element stops a shrink of the array to `target`: it is the highest one, not below
`target`, that is not configurable. -/
structure Blocked (array : ArrayObject) (target index : Nat) : Prop where
  above : target ≤ index
  fixed : ∃ slot, array.element? index = some slot ∧ slot.isConfigurable = false
  highest : ∀ other slot, index < other → array.element? other = some slot →
    slot.isConfigurable = true

/-- An array with a writable length before and after its elements above an index, and nothing but
these, were cut off.  A dense buffer may have been released. -/
structure CutAbove (before after : ArrayObject) (index : Nat) (frozen : Bool) : Prop where
  length : after.length = index + 1
  elements : ∀ position,
    after.element? position = if position ≤ index then before.element? position else none
  lengthWritable : after.lengthWritable = !frozen
  base : after.base = before.base
  policy : after.policy = before.policy
  storage : after.elements.isSparse = before.elements.isSparse
  wellFormed : after.WellFormed

/-- The search of a shrinking array finds exactly the element that stops it. -/
theorem WellFormed.blocker?_eq_some_iff (wellFormed : array.WellFormed) :
    array.blocker? target = some index ↔ array.Blocked target index := by
  rw [wellFormed.blocker?_eq]
  constructor
  · intro found
    obtain ⟨above, ⟨slot, stored, fixed⟩, beyond⟩ := AscendingMap.lastFrom?_eq_some found
    rw [Elements.get?_toSparse] at stored
    rw [Bool.not_eq_true'] at fixed
    refine ⟨above, ⟨slot, stored, fixed⟩, ?_⟩
    intro other held higher foundOther
    rw [element?, ← Elements.get?_toSparse] at foundOther
    have passes := beyond other held higher foundOther
    rwa [Bool.not_eq_false'] at passes
  · intro blocked
    obtain ⟨slot, stored, fixed⟩ := blocked.fixed
    rw [element?, ← Elements.get?_toSparse] at stored
    have stops : (!slot.isConfigurable) = true := by
      rw [fixed]
      rfl
    cases found : array.elements.toSparse.lastFrom? (fun slot => !slot.isConfigurable) target with
    | none =>
      have passes := AscendingMap.lastFrom?_eq_none_iff.mp found index slot blocked.above stored
      rw [stops] at passes
      cases passes
    | some last =>
      obtain ⟨_, ⟨held, storedLast, stopsLast⟩, beyond⟩ := AscendingMap.lastFrom?_eq_some found
      rcases Nat.lt_trichotomy last index with below | same | higher
      · have passes := beyond index slot below stored
        rw [stops] at passes
        cases passes
      · rw [same]
      · rw [Elements.get?_toSparse] at storedLast
        have passes := blocked.highest last held higher storedLast
        rw [passes] at stopsLast
        cases stopsLast

theorem WellFormed.cutAbove_dropFrom (wellFormed : array.WellFormed)
    (writable : array.lengthWritable = true) (inside : index < array.length) :
    array.CutAbove { array.dropFrom (index + 1) with length := index + 1 } index false where
  length := rfl
  elements position := by
    refine (element?_dropFrom array (index + 1) position).trans ?_
    simp only [Nat.lt_succ_iff]
  lengthWritable := writable
  base := rfl
  policy := rfl
  storage := Elements.isSparse_dropFrom array.policy array.elements (index + 1)
  wellFormed := wellFormed.shorten (Nat.le_trans inside wellFormed.length_le)

theorem CutAbove.defineWritable {after : ArrayObject} (cut : array.CutAbove after index false)
    (resized : Verdict) (request : Request) :
    array.CutAbove (after.defineWritable resized request).2 index
      (request.writable == some false) where
  length := cut.length
  elements := cut.elements
  lengthWritable := by
    have writable : after.lengthWritable = true := cut.lengthWritable
    simp only [ArrayObject.defineWritable, writable, Bool.true_and]
    rcases request.writable with _ | _ | _ <;> rfl
  base := cut.base
  policy := cut.policy
  storage := cut.storage
  wellFormed := cut.wellFormed.congr rfl rfl rfl rfl

theorem Blocked.setLength (blocked : array.Blocked target index) (wellFormed : array.WellFormed)
    (writable : array.lengthWritable = true) :
    ∃ next, array.setLength target = (.refused (.redefinition .length), next) ∧
      array.CutAbove next index false := by
  obtain ⟨slot, found, _⟩ := blocked.fixed
  have inside : index < array.length := wellFormed.lt_length found
  have shorter : target < array.length := Nat.lt_of_le_of_lt blocked.above inside
  have blocker : array.blocker? target = some index := wellFormed.blocker?_eq_some_iff.mpr blocked
  refine ⟨_, ?_, wellFormed.cutAbove_dropFrom writable inside⟩
  simp only [ArrayObject.setLength, if_neg (Nat.ne_of_lt shorter), writable, if_true, truncate,
    blocker, if_pos shorter]

theorem setLength_of_readOnly (readOnly : array.lengthWritable = false) (length : Nat) :
    (array.setLength length).2 = array := by
  simp only [ArrayObject.setLength, readOnly]
  split <;> rfl

theorem defineWritable_of_readOnly (readOnly : array.lengthWritable = false) (resized : Verdict)
    (request : Request) : (array.defineWritable resized request).2 = array := by
  simp only [defineWritable, readOnly, Bool.false_and]
  rw [← readOnly]

theorem setLength_of_unblocked (writable : array.lengthWritable = true)
    (unblocked : array.blocker? target = none) :
    (array.setLength target).1 = .accepted ∧ (array.setLength target).2.lengthWritable = true := by
  simp only [ArrayObject.setLength, writable, if_true, truncate, unblocked]
  split
  next => exact ⟨rfl, writable⟩
  next =>
    refine ⟨rfl, ?_⟩
    split <;> exact writable

theorem allOrNothing_withBase {outcome : Except Fault (Verdict × OrdinaryObject)}
    (whole : AllOrNothing OrdinaryObject.prototype array.base outcome) :
    AllOrNothing (·.base.prototype) array
      (outcome.map (·.map id fun base => { array with base })) :=
  whole.within (fun base => { array with base }) fun _ => rfl

theorem allOrNothing_setLength
    (unblocked : array.lengthWritable = true → array.blocker? target = none) :
    AllOrNothing (·.base.prototype) array (.ok (array.setLength target)) := by
  cases writable : array.lengthWritable with
  | false =>
    have unchanged := setLength_of_readOnly writable target
    exact .of_unchanged unchanged
  | true =>
    have accepted := (setLength_of_unblocked writable (unblocked writable)).1
    exact .of_accepted accepted (congrArg OrdinaryObject.prototype (base_setLength array target))

theorem allOrNothing_defineWritable
    (unblocked : array.lengthWritable = true → array.blocker? target = none) (request : Request) :
    AllOrNothing (·.base.prototype) array
      (.ok ((array.setLength target).2.defineWritable (array.setLength target).1 request)) := by
  cases writable : array.lengthWritable with
  | false =>
    rw [setLength_of_readOnly writable]
    exact .of_unchanged (defineWritable_of_readOnly writable _ request)
  | true =>
    obtain ⟨accepted, still⟩ := setLength_of_unblocked writable (unblocked writable)
    apply AllOrNothing.of_accepted
    case accepted => simp only [defineWritable, accepted, still, true_or, and_self, if_true]
    case linked => exact congrArg OrdinaryObject.prototype (base_setLength array target)

theorem allOrNothing_defineLength {request : Request}
    (unblocked : ∀ value length, request.lengthValue? = some value →
      toArrayLength value = .ok length → array.lengthWritable = true →
        array.blocker? length = none) :
    AllOrNothing (·.base.prototype) array (array.defineLength request) := by
  rw [defineLength]
  split
  next => exact .refused _
  next possible =>
    have asked : request.lengthValue? = request.value := if_neg possible
    rw [asked] at unblocked
    split
    next =>
      cases writable : array.lengthWritable with
      | false => exact .of_unchanged (defineWritable_of_readOnly writable _ request)
      | true =>
        apply AllOrNothing.of_accepted
        case accepted => simp only [defineWritable, writable, true_or, and_self, if_true]
        case linked => rfl
    next value named =>
      cases converted : toArrayLength value with
      | error fault => exact .faulty (isRefusal_of_toArrayLength converted)
      | ok length =>
        exact allOrNothing_defineWritable (unblocked value length named converted) request

theorem allOrNothing_place (array : ArrayObject) (index : Nat) (slot : Slot) :
    AllOrNothing (·.base.prototype) array (array.place index slot) := by
  rw [place_eq]
  split
  next => exact .accepted rfl
  next =>
    split
    next => exact .faulty rfl
    next =>
      split
      next => exact .accepted rfl
      next => exact .refused _

theorem allOrNothing_add (array : ArrayObject) (key : Key) (value : Value) :
    AllOrNothing (·.base.prototype) array (array.add key value) := by
  cases key with
  | index i =>
    simp only [add]
    split
    next => exact array.allOrNothing_place i.toNat _
    next => exact .refused _
  | named text =>
    exact allOrNothing_withBase (array.base.allOrNothing_add (.named text) value)

theorem allOrNothing_write {key : Key} {value : Value}
    (unblocked : key.isLength = true → ∀ length, toArrayLength value = .ok length →
      array.lengthWritable = true → array.blocker? length = none) :
    AllOrNothing (·.base.prototype) array (array.write key value) := by
  cases key with
  | index i =>
    simp only [write]
    split
    next => exact array.allOrNothing_add (.index i) value
    next =>
      split
      next => exact .accepted rfl
      next => exact .refused _
  | named text =>
    simp only [write]
    split
    next isLength =>
      cases converted : toArrayLength value with
      | error fault => exact .faulty (isRefusal_of_toArrayLength converted)
      | ok length => exact allOrNothing_setLength (unblocked isLength length converted)
    next =>
      exact allOrNothing_withBase (array.base.allOrNothing_write (.named text) value)

theorem allOrNothing_define {key : Key} {request : Request}
    (unblocked : key.isLength = true → ∀ value length, request.lengthValue? = some value →
      toArrayLength value = .ok length → array.lengthWritable = true →
        array.blocker? length = none) :
    AllOrNothing (·.base.prototype) array (array.define key request) := by
  cases key with
  | index i =>
    simp only [define]
    cases decided : resolution (.index i) (array.element? i.toNat) request
        array.base.extensible with
    | error fault => exact .faulty (isRefusal_of_resolution decided)
    | ok resolution =>
      cases resolution with
      | stored slot => exact array.allOrNothing_place i.toNat slot
      | refused why => exact .refused why
  | named text =>
    simp only [define]
    split
    next isLength => exact allOrNothing_defineLength (unblocked isLength)
    next =>
      exact allOrNothing_withBase (array.base.allOrNothing_define (.named text) request)

theorem allOrNothing_delete (array : ArrayObject) (key : Key) :
    AllOrNothing (·.base.prototype) array (.ok (array.delete key)) := by
  cases key with
  | index i =>
    simp only [delete]
    split
    next => exact .accepted rfl
    next =>
      split
      next => exact .accepted rfl
      next => exact .refused _
  | named text =>
    simp only [delete]
    split
    next => exact .refused _
    next =>
      exact allOrNothing_withBase (array.base.allOrNothing_delete (.named text))

section Mutating

variable {mutation : OwnMutation}

/-- Unless an element stops a shrink, a mutation happens entirely or not at all. -/
theorem allOrNothing_mutate (wellFormed : array.WellFormed)
    (unblocked : ∀ target index, mutation.requestedLength? = some target →
      array.lengthWritable = true → ¬array.Blocked target index) :
    AllOrNothing (·.base.prototype) array (array.mutate mutation) := by
  have passes : ∀ value length, mutation.lengthValue? = some value →
      toArrayLength value = .ok length → array.lengthWritable = true →
        array.blocker? length = none := by
    intro value length asked converted writable
    have requested : mutation.requestedLength? = some length := by
      simp only [OwnMutation.requestedLength?, asked, Option.bind_some, converted, Except.toOption]
    cases blocker : array.blocker? length with
    | none => rfl
    | some index =>
      have blocked := wellFormed.blocker?_eq_some_iff.mp blocker
      exact absurd blocked (unblocked length index requested writable)
  cases mutation with
  | write key value =>
    apply allOrNothing_write
    intro isLength
    exact fun length => passes value length (if_pos isLength)
  | add key value => exact array.allOrNothing_add key value
  | define key request =>
    apply allOrNothing_define
    intro isLength value length asked
    exact passes value length ((if_pos isLength).trans asked)
  | delete key => exact array.allOrNothing_delete key

/-- A mutation that asks for a length that an element does not allow is refused, and cuts off the
elements above it. -/
theorem Blocked.mutate (blocked : array.Blocked target index) (wellFormed : array.WellFormed)
    (writable : array.lengthWritable = true)
    (requested : mutation.requestedLength? = some target) :
    ∃ next, array.mutate mutation = .ok (.refused (.redefinition .length), next) ∧
      array.CutAbove next index mutation.freezes := by
  obtain ⟨value, asked, converted⟩ := Option.bind_eq_some_iff.mp requested
  have length : toArrayLength value = .ok target := by
    cases outcome : toArrayLength value with
    | error fault =>
      rw [outcome] at converted
      cases converted
    | ok length =>
      rw [outcome] at converted
      cases converted
      rfl
  obtain ⟨cut, assigned, cutAbove⟩ := blocked.setLength wellFormed writable
  cases mutation with
  | write key value =>
    simp only [OwnMutation.lengthValue?] at asked
    split at asked
    next isLength =>
      cases asked
      cases key with
      | index i => cases isLength
      | named text =>
        refine ⟨cut, ?_, cutAbove⟩
        simp only [ArrayObject.mutate, write, isLength, if_true, length, assigned, bind,
          Except.bind, pure, Except.pure]
    next => cases asked
  | define key request =>
    simp only [OwnMutation.lengthValue?] at asked
    split at asked
    next isLength =>
      cases key with
      | index i => cases isLength
      | named text =>
        unfold Request.lengthValue? at asked
        split at asked
        next => cases asked
        next possible =>
          refine ⟨_, ?_, cutAbove.defineWritable (.refused (.redefinition .length)) request⟩
          simp only [ArrayObject.mutate, define, isLength, if_true]
          rw [defineLength, if_neg possible]
          simp only [asked, length, Except.map, assigned]
          rfl
    next => cases asked
  | add key value => cases asked
  | delete key => cases asked

end Mutating

end ArrayObject

end ObjectModel
