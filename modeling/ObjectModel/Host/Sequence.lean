import ObjectModel.Host.Map
import ObjectModel.Object.Array

/-!
Objects that show a host sequence.

The items are the properties at the indices below the length, converted at every access; `length`
is a property of its own, and all other properties are those of an ordinary object.
-/

namespace ObjectModel

structure HostSequence (elementType : ElementType) where
  items : List elementType.Carrier
  resizable : Bool
  base : OrdinaryObject

namespace HostSequence

variable {elementType : ElementType}

/-- Items cut off or filled up with default elements to a given length. -/
def fit (items : List elementType.Carrier) (length : Nat) : List elementType.Carrier :=
  items.take length ++ List.replicate (length - items.length) elementType.default

def getOwn (view : HostSequence elementType) (key : Key) : Option Slot :=
  match key with
  | .index i => view.items[i.toNat]?.map fun item => .bare (elementType.toValue item)
  | .named _ =>
    if key.isLength then
      some (.described
        (.data (.number (.ofNat view.items.length)) ⟨view.resizable, false, false⟩))
    else view.base.getOwn key

/-- Convert a value and store it at an index, extending the sequence if necessary. -/
def setItem (index : Nat) (value : Value) (strict : Bool) :
    Mutation (HostSequence elementType) Bool := do
  let item ← Mutation.ofExcept (elementType.ofValue value)
  let view ← get
  if view.items.length ≤ index then
    if !view.resizable then return ← Mutation.reject strict .fixedSequence
    modify fun view => { view with items := fit view.items (index + 1) }
  modify fun view => { view with items := view.items.set index item }
  return true

def assignLength (value : Value) (strict : Bool) : Mutation (HostSequence elementType) Bool := do
  let length ← Mutation.ofExcept (toArrayLength value)
  let view ← get
  if length = view.items.length then return true
  else if !view.resizable then Mutation.reject strict .fixedLength
  else
    modify fun view => { view with items := fit view.items length }
    return true

def onBase (mutation : Mutation OrdinaryObject Bool) :
    Mutation (HostSequence elementType) Bool := do
  let view ← get
  mutation.through (fun base => { view with base }) view.base

def writeOwn (key : Key) (value : Value) (strict : Bool) :
    Mutation (HostSequence elementType) Bool :=
  match key with
  | .index i => setItem i.toNat value strict
  | .named _ =>
    if key.isLength then assignLength value strict
    else onBase (OrdinaryObject.writeOwn key value strict)

def addOwn (key : Key) (value : Value) (strict : Bool) :
    Mutation (HostSequence elementType) Bool :=
  match key with
  | .index i => setItem i.toNat value strict
  | .named _ => onBase (OrdinaryObject.addOwn key value strict)

/-- Define a property as requested; a request without a value changes no item. -/
def defineOwn (key : Key) (request : Request) (strict : Bool) :
    Mutation (HostSequence elementType) Bool := do
  match key with
  | .index i =>
    if ← Mutation.ofExcept (checkEntry key request strict) then
      match request.value with
      | some value => setItem i.toNat value strict
      | none => return true
    else return false
  | .named _ =>
    if key.isLength then
      if request.isAccessor || request.configurable == some true ||
          request.enumerable == some true then
        Mutation.reject strict (.redefinition .length)
      else
        match request.value with
        | some value => assignLength value strict
        | none => return true
    else onBase (OrdinaryObject.defineOwn key request strict)

/-- Delete a property; an item is reset to the default element. -/
def deleteOwn (key : Key) (strict : Bool) : Mutation (HostSequence elementType) Bool := do
  match key with
  | .index i =>
    modify fun view => { view with items := view.items.set i.toNat elementType.default }
    return true
  | .named _ =>
    if key.isLength then Mutation.reject strict (.deletion .length .array)
    else onBase (OrdinaryObject.deleteOwn key strict)

def ownKeys (view : HostSequence elementType) : List (Key × Bool) :=
  (List.range view.items.length).map (fun i => (Key.index (UInt32.ofNat i), true)) ++
    (Key.length, false) :: view.base.ownKeys

def toTree (view : HostSequence elementType) : Tree := .list (view.items.map elementType.toTree)

end HostSequence

end ObjectModel
