import ObjectModel.Mutation
import ObjectModel.Property.Request
import ObjectModel.Table.Ordered

/-!
Ordinary objects: properties in the order of their insertion, a prototype link and a flag that
allows new properties.
-/

namespace ObjectModel

/-- An ordinary object; it is also the store for the further properties of all other objects. -/
structure OrdinaryObject where
  properties : OrderedMap Key Slot
  prototype : Option ObjectId
  extensible : Bool

namespace OrdinaryObject

def new (prototype : Option ObjectId) : OrdinaryObject := ⟨.empty, prototype, true⟩

/-- The properties of a new function: a hidden `name` that may be deleted. -/
def ofFunction (name : String) (prototype : Option ObjectId) : OrdinaryObject :=
  ⟨.insert .empty .name (.described (.data (.text (.ofString name)) ⟨false, false, true⟩)),
    prototype, true⟩

def size (object : OrdinaryObject) : Nat := object.properties.size

def getOwn (object : OrdinaryObject) (key : Key) : Option Slot := object.properties.get? key

def store (object : OrdinaryObject) (key : Key) (slot : Slot) : OrdinaryObject :=
  { object with properties := object.properties.insert key slot }

def addOwn (key : Key) (value : Value) (strict : Bool) : Mutation OrdinaryObject Bool := do
  if (← get).extensible then
    modify (·.store key (.bare value))
    return true
  else Mutation.reject strict (.notExtensible key)

def writeOwn (key : Key) (value : Value) (strict : Bool) : Mutation OrdinaryObject Bool := do
  match (← get).getOwn key with
  | none => addOwn key value strict
  | some slot =>
    match slot.write? value with
    | some written =>
      modify (·.store key written)
      return true
    | none => Mutation.reject strict (.readOnly key)

def defineOwn (key : Key) (request : Request) (strict : Bool) : Mutation OrdinaryObject Bool := do
  let object ← get
  match ← Mutation.ofExcept
      (reconcile key (object.getOwn key) request object.extensible strict) with
  | some slot =>
    modify (·.store key slot)
    return true
  | none => return false

/-- Delete a property; there is nothing to refuse when it is absent. -/
def deleteOwn (key : Key) (strict : Bool) : Mutation OrdinaryObject Bool := do
  match (← get).getOwn key with
  | none => return true
  | some slot =>
    if slot.isConfigurable then
      modify fun object => { object with properties := object.properties.erase key }
      return true
    else Mutation.reject strict (.deletion key .object)

def ownKeys (object : OrdinaryObject) : List (Key × Bool) :=
  object.properties.entries.map fun entry => (entry.1, entry.2.isEnumerable)

def setPrototype (object : OrdinaryObject) (prototype : Option ObjectId) : OrdinaryObject :=
  { object with prototype }

def preventExtensions (object : OrdinaryObject) : OrdinaryObject :=
  { object with extensible := false }

@[simp]
theorem getOwn_store (object : OrdinaryObject) (key wanted : Key) (slot : Slot) :
    (object.store key slot).getOwn wanted =
      if wanted = key then some slot else object.getOwn wanted :=
  OrderedMap.get?_insert object.properties key wanted slot

end OrdinaryObject

end ObjectModel
