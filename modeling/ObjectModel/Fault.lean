import ObjectModel.Key
import ObjectModel.Value

/-!
What can go wrong, by cause.

A `Refusal` is the object's own "no" to a mutation, which a caller may choose to hear as `false`.
All other faults always reach the caller.  Every cause has one wording.
-/

namespace ObjectModel

inductive Owner
  | object
  | array
  | string
  deriving DecidableEq, Repr

def Owner.display : Owner → String
  | .object => "Object"
  | .array => "Array"
  | .string => "a String"

inductive Refusal
  | readOnly (key : Key)
  | readOnlyOf (key : Key) (owner : Owner)
  | notExtensible (key : Key)
  | notDefinable (key : Key)
  | redefinition (key : Key)
  | deletion (key : Key) (owner : Owner)
  | getterOnly (key : Key)
  | fixedPrototype
  | cyclicPrototype
  | accessorEntry (key : Key)
  | readOnlyEntry (key : Key)
  | configurableEntry (key : Key)
  | fixedEntries
  | fixedSequence
  | fixedLength
  | custom (text : String)
  deriving DecidableEq

def Refusal.message : Refusal → String
  | .readOnly key => s!"Cannot assign to read only property '{key.display}'"
  | .readOnlyOf key owner =>
    s!"Cannot assign to read only property '{key.display}' of {owner.display}"
  | .notExtensible key => s!"Cannot add property {key.display}, object is not extensible"
  | .notDefinable key => s!"Cannot define property {key.display}, object is not extensible"
  | .redefinition key => s!"Cannot redefine property: {key.display}"
  | .deletion key owner => s!"Cannot delete property '{key.display}' of {owner.display}"
  | .getterOnly key => s!"Cannot set property {key.display} which has only a getter"
  | .fixedPrototype => "Object is not extensible"
  | .cyclicPrototype => "Cyclic __proto__ value"
  | .accessorEntry key => s!"Cannot define accessor property {key.display} on a host collection"
  | .readOnlyEntry key => s!"Host collection entry {key.display} cannot be made read-only"
  | .configurableEntry key => s!"Host collection entry {key.display} cannot be made configurable"
  | .fixedEntries => "Host object is not extensible"
  | .fixedSequence => "Cannot extend host sequence"
  | .fixedLength => "Cannot resize host sequence"
  | .custom text => text

inductive Mismatch
  | mixedRequest
  | notFunction (callee : String)
  | conversion (source target : String)
  | circular
  | custom (text : String)
  deriving DecidableEq

def Mismatch.message : Mismatch → String
  | .mixedRequest =>
    "Invalid property descriptor. Cannot both specify accessors and a value or writable attribute"
  | .notFunction callee => s!"{callee} is not a function"
  | .conversion source target => s!"Cannot convert {source} to {target}"
  | .circular => "Converting circular structure"
  | .custom text => text

inductive RangeFault
  | arrayLength
  | custom (text : String)
  deriving DecidableEq

def RangeFault.message : RangeFault → String
  | .arrayLength => "Invalid array length"
  | .custom text => text

inductive HeapFault
  | dangling (id : ObjectId)
  | beingModified
  | alreadyBorrowed
  | notConstructed
  | chainTooDeep
  | custom (text : String)
  deriving DecidableEq

def HeapFault.message : HeapFault → String
  | .dangling id => s!"dangling object handle {id.index}"
  | .beingModified => "object is being modified"
  | .alreadyBorrowed => "object is already borrowed"
  | .notConstructed => "lazy object is not constructed"
  | .chainTooDeep => "prototype chain is too deep"
  | .custom text => text

inductive Fault
  | attributeViolation (why : Refusal)
  | typeMismatch (why : Mismatch)
  | range (why : RangeFault)
  | internal (why : HeapFault)
  | thrown (value : Value)
  deriving DecidableEq

namespace Fault

def message : Fault → String
  | .attributeViolation why => "TypeError: " ++ why.message
  | .typeMismatch why => "TypeError: " ++ why.message
  | .range why => "RangeError: " ++ why.message
  | .internal why => "InternalError: " ++ why.message
  | .thrown value => "Uncaught exception: " ++ value.display

def isRefusal : Fault → Bool
  | .attributeViolation _ => true
  | _ => false

end Fault

/-- A refusal as its caller hears it: a fault if the caller asked for faults, and `false`
otherwise. -/
def reject (strict : Bool) (why : Refusal) : Except Fault Bool :=
  if strict then .error (.attributeViolation why) else .ok false

end ObjectModel
