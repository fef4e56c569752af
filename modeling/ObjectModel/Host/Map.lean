import ObjectModel.Host.Element
import ObjectModel.Host.KeyType
import ObjectModel.Object.Ordinary

/-!
Objects that show a host map.

An own property whose key denotes a host key is an entry of the map, converted at every access;
all other properties are those of an ordinary object.
-/

namespace ObjectModel

/-- Whether a request can be met by the entry of a host collection: entries are writable values that
are not configurable. -/
def checkEntry (key : Key) (request : Request) (strict : Bool) : Except Fault Bool :=
  if request.isAccessor then reject strict (.accessorEntry key)
  else if request.writable == some false then reject strict (.readOnlyEntry key)
  else if request.configurable == some true then reject strict (.configurableEntry key)
  else .ok true

structure HostMap (keyType : KeyType) (elementType : ElementType) where
  entries : OrderedMap keyType.Carrier elementType.Carrier
  growable : Bool
  base : OrdinaryObject

namespace HostMap

variable {keyType : KeyType} {elementType : ElementType}

def getOwn (view : HostMap keyType elementType) (key : Key) : Option Slot :=
  match keyType.ofKey? key with
  | some hostKey =>
    (view.entries.get? hostKey).map fun element => .bare (elementType.toValue element)
  | none => view.base.getOwn key

def insert (hostKey : keyType.Carrier) (value : Value) :
    Mutation (HostMap keyType elementType) Bool := do
  let element ← Mutation.ofExcept (elementType.ofValue value)
  modify fun view => { view with entries := view.entries.insert hostKey element }
  return true

def onBase (mutation : Mutation OrdinaryObject Bool) :
    Mutation (HostMap keyType elementType) Bool := do
  let view ← get
  mutation.through (fun base => { view with base }) view.base

def writeOwn (key : Key) (value : Value) (strict : Bool) :
    Mutation (HostMap keyType elementType) Bool := do
  match keyType.ofKey? key with
  | some hostKey =>
    let view ← get
    if !view.growable && !view.entries.contains hostKey then Mutation.reject strict .fixedEntries
    else insert hostKey value
  | none => onBase (OrdinaryObject.writeOwn key value strict)

def addOwn (key : Key) (value : Value) (strict : Bool) :
    Mutation (HostMap keyType elementType) Bool := do
  match keyType.ofKey? key with
  | some hostKey =>
    if !(← get).growable then Mutation.reject strict .fixedEntries else insert hostKey value
  | none => onBase (OrdinaryObject.addOwn key value strict)

/-- Define a property as requested; without a value a new entry holds `undefined`. -/
def defineOwn (key : Key) (request : Request) (strict : Bool) :
    Mutation (HostMap keyType elementType) Bool := do
  match keyType.ofKey? key with
  | some hostKey =>
    if ← Mutation.ofExcept (checkEntry key request strict) then
      let view ← get
      let present := view.entries.contains hostKey
      if !present && !view.growable then Mutation.reject strict .fixedEntries
      else
        match request.value with
        | some value => insert hostKey value
        | none => if present then return true else insert hostKey .undefined
    else return false
  | none => onBase (OrdinaryObject.defineOwn key request strict)

def deleteOwn (key : Key) (strict : Bool) : Mutation (HostMap keyType elementType) Bool := do
  match keyType.ofKey? key with
  | some hostKey =>
    modify fun view => { view with entries := view.entries.erase hostKey }
    return true
  | none => onBase (OrdinaryObject.deleteOwn key strict)

/-- The own keys in order, each with its enumerable attribute: the entries, then the further
properties. -/
def ownKeys (view : HostMap keyType elementType) : List (Key × Bool) :=
  view.entries.keys.map (fun hostKey => (keyType.toKey hostKey, true)) ++ view.base.ownKeys

def toTree (view : HostMap keyType elementType) : Tree :=
  .ofEntries (view.entries.entries.map fun entry =>
    ((keyType.toKey entry.1).display, elementType.toTree entry.2))

end HostMap

end ObjectModel
