import ObjectModel.Object.Elements
import ObjectModel.Object.Ordinary

/-!
Arrays.

An array has elements at indices below its length, which is a property of its own, and further
properties like an ordinary object.  The number of elements, and of elements stored with a
description, is kept beside them.
-/

namespace ObjectModel

def maxArrayLength : Nat := 0xFFFFFFFF

/-- The array length that a value is: a whole number from zero to `2 ^ 32 - 1`. -/
def toArrayLength (value : Value) : Except Fault Nat :=
  match value.toNumber.toInt? with
  | some n =>
    if 0 ≤ n ∧ n ≤ maxArrayLength then .ok n.toNat else .error (.range .arrayLength)
  | none => .error (.range .arrayLength)

structure ArrayObject where
  base : OrdinaryObject
  elements : Elements
  length : Nat
  lengthWritable : Bool
  elementCount : Nat
  /-- The number of elements stored with a description. -/
  describedCount : Nat
  policy : Policy

namespace ArrayObject

def new (prototype : Option ObjectId) (policy : Policy) : ArrayObject where
  base := .new prototype
  elements := .empty
  length := 0
  lengthWritable := true
  elementCount := 0
  describedCount := 0
  policy := policy

def ofValues (values : List Value) (prototype : Option ObjectId) (policy : Policy) :
    Except Fault ArrayObject :=
  if values.length ≤ maxArrayLength then
    .ok
      { new prototype policy with
        elements := .ofValues values
        length := values.length
        elementCount := values.length }
  else .error (.range .arrayLength)

def ofLength (length : Nat) (prototype : Option ObjectId) (policy : Policy) :
    Except Fault ArrayObject :=
  if length ≤ maxArrayLength then .ok { new prototype policy with length }
  else .error (.range .arrayLength)

def element? (array : ArrayObject) (index : Nat) : Option Slot := array.elements.get? index

def sortLength (array : ArrayObject) : Nat := array.elements.sortLength

def sortSlot? (array : ArrayObject) (position : Nat) : Option Slot :=
  array.elements.sortSlot? position

def sortSwap (array : ArrayObject) (a b : Nat) : ArrayObject :=
  { array with elements := array.elements.sortSwap a b }

def dropFrom (array : ArrayObject) (target : Nat) : ArrayObject :=
  let dropped := array.elements.slotsFrom target
  { array with
    elements := array.elements.dropFrom array.policy target
    elementCount := array.elementCount - dropped.length
    describedCount := array.describedCount - dropped.countP Slot.isDescribed }

/-- The highest element, not below `target`, that a shrinking array must keep. -/
def blocker? (array : ArrayObject) (target : Nat) : Option Nat :=
  if target < array.length ∧ 0 < array.describedCount then
    array.elements.lastFixedFrom? target array.length
  else none

/-- Move the length to `target` and drop the elements from there on.  An element that is not
configurable stops the shrinking just above itself; the partial shrink stays. -/
def moveLength (target : Nat) (strict : Bool) : Mutation ArrayObject Bool := do
  let array ← get
  let blocker := array.blocker? target
  let bound := blocker.elim target (· + 1)
  if target < array.length then modify (·.dropFrom bound)
  modify ({ · with length := bound })
  if blocker.isSome then Mutation.reject strict (.redefinition .length) else return true

def assignLength (length : Nat) (strict : Bool) : Mutation ArrayObject Bool := do
  let array ← get
  if length = array.length then return true
  else if array.lengthWritable then moveLength length strict
  else Mutation.reject strict (.readOnlyOf .length .array)

def lengthSlot (array : ArrayObject) : Slot :=
  .described (.data (.number (.ofNat array.length)) ⟨array.lengthWritable, false, false⟩)

/-- Take the length from a request that names one.  A refusal is left to the request. -/
def nameLength (named : Option Value) : Mutation ArrayObject Bool := do
  match named with
  | none => return true
  | some value =>
    let length ← Mutation.ofExcept (toArrayLength value)
    let array ← get
    if length = array.length then return true
    else if array.lengthWritable then moveLength length false
    else return false

def nameLengthWritable (named : Option Bool) : Mutation ArrayObject Bool := do
  match named with
  | none => return true
  | some writable =>
    if (← get).lengthWritable then
      modify ({ · with lengthWritable := writable })
      return true
    else return !writable

/-- Define the property `length`.  The new length is applied before the new attribute, and a
request that fails may have shrunk the array up to an element that must stay. -/
def defineLengthOwn (request : Request) (strict : Bool) : Mutation ArrayObject Bool := do
  if request.configurable == some true || request.enumerable == some true || request.isAccessor then
    Mutation.reject strict (.redefinition .length)
  else
    let resized ← nameLength request.value
    let allowed ← nameLengthWritable request.writable
    if resized && allowed then return true else Mutation.reject strict (.redefinition .length)

def store (array : ArrayObject) (index : Nat) (slot : Slot) : ArrayObject :=
  let previous := array.element? index
  { array with
    elements := (array.elements.clear index).put array.policy array.elementCount index slot
    elementCount := if previous.isSome then array.elementCount else array.elementCount + 1
    describedCount :=
      array.describedCount - (previous.any Slot.isDescribed).toNat + slot.isDescribed.toNat }

@[simp]
theorem element?_store (array : ArrayObject) (index wanted : Nat) (slot : Slot) :
    (array.store index slot).element? wanted =
      if wanted = index then some slot else array.element? wanted := by
  simp only [store, element?, Elements.get?_put, Elements.get?_clear]
  split <;> rfl

@[simp]
theorem element?_dropFrom (array : ArrayObject) (target wanted : Nat) :
    (array.dropFrom target).element? wanted =
      if wanted < target then array.element? wanted else none :=
  Elements.get?_dropFrom array.policy array.elements target wanted

/-- Grow the length to cover an index. -/
def coverIndex (index : Nat) (strict : Bool) : Mutation ArrayObject Bool := do
  if index < (← get).length then return true
  else if index < maxArrayLength then assignLength (index + 1) strict
  else throw (.range .arrayLength)

def placeOwn (index : Nat) (slot : Slot) (strict : Bool) : Mutation ArrayObject Bool := do
  if ← coverIndex index strict then
    modify (·.store index slot)
    return true
  else return false

def onBase (mutation : Mutation OrdinaryObject Bool) : Mutation ArrayObject Bool := do
  let array ← get
  mutation.through (fun base => { array with base }) array.base

def getOwn (array : ArrayObject) (key : Key) : Option Slot :=
  match key with
  | .index i => array.element? i.toNat
  | .named _ => if key.isLength then some array.lengthSlot else array.base.getOwn key

def addOwn (key : Key) (value : Value) (strict : Bool) : Mutation ArrayObject Bool := do
  match key with
  | .index i =>
    if (← get).base.extensible then placeOwn i.toNat (.bare value) strict
    else Mutation.reject strict (.notExtensible key)
  | .named _ => onBase (OrdinaryObject.addOwn key value strict)

def writeOwn (key : Key) (value : Value) (strict : Bool) : Mutation ArrayObject Bool := do
  match key with
  | .index i =>
    match (← get).element? i.toNat with
    | none => addOwn key value strict
    | some slot =>
      match slot.write? value with
      | some written =>
        modify fun array => { array with elements := array.elements.modify i.toNat written }
        return true
      | none => Mutation.reject strict (.readOnlyOf key .array)
  | .named _ =>
    if key.isLength then assignLength (← Mutation.ofExcept (toArrayLength value)) strict
    else onBase (OrdinaryObject.writeOwn key value strict)

def defineOwn (key : Key) (request : Request) (strict : Bool) : Mutation ArrayObject Bool := do
  match key with
  | .index i =>
    let array ← get
    match ← Mutation.ofExcept
        (reconcile key (array.element? i.toNat) request array.base.extensible strict) with
    | some slot => placeOwn i.toNat slot strict
    | none => return false
  | .named _ =>
    if key.isLength then defineLengthOwn request strict
    else onBase (OrdinaryObject.defineOwn key request strict)

def deleteOwn (key : Key) (strict : Bool) : Mutation ArrayObject Bool := do
  match key with
  | .index i =>
    match (← get).element? i.toNat with
    | none => return true
    | some slot =>
      if slot.isConfigurable then
        modify fun array =>
          { array with
            elements := array.elements.clear i.toNat
            elementCount := array.elementCount - 1
            describedCount := array.describedCount - slot.isDescribed.toNat }
        return true
      else Mutation.reject strict (.deletion key .array)
  | .named _ =>
    if key.isLength then Mutation.reject strict (.deletion .length .array)
    else onBase (OrdinaryObject.deleteOwn key strict)

/-- The own keys in order, each with its enumerable attribute: the elements by ascending index,
`length`, and the further properties. -/
def ownKeys (array : ArrayObject) : List (Key × Bool) :=
  array.elements.entries.map (fun entry =>
      (Key.index (UInt32.ofNat entry.1), entry.2.isEnumerable)) ++
    (Key.length, false) :: array.base.ownKeys

end ArrayObject

end ObjectModel
