import ObjectModel.Heap.Code

/-!
Scripts: programs of steps on a heap, written as plain data.

A step calls one operation; what it needs may be the receiver, an argument or the value of the step
before.  Native functions and the factories of lazy objects are written as scripts as well.
-/

namespace ObjectModel.Script

inductive Operand
  | value (value : Value)
  | this
  | argument (index : Nat)
  | last

inductive Target
  | handle (id : ObjectId)
  | this
  | last

/-- The prototype link of a new object. -/
inductive Link
  | standard
  | none
  | target (target : Target)

inductive RequestForm
  | fields (value get set : Option Operand) (writable enumerable configurable : Option Bool)
  | data (value : Operand) (attributes : Attributes)
  | accessor (get set : Option Operand) (enumerable configurable : Bool)

inductive Failure
  | attributeViolation (text : String)
  | typeMismatch (text : String)
  | range (text : String)
  | internal (text : String)
  | exception (value : Operand)

inductive Operation
  | size
  | showHeap
  | get (target : Target) (key : Key)
  | getFrom (target : Target) (key : Key) (receiver : Operand)
  | getOwn (target : Target) (key : Key)
  | describe (target : Target) (key : Key)
  | put (target : Target) (key : Key) (value : Operand) (strict : Bool)
  /-- Put the index as the value at `count` indices from `start` on, `stride` apart. -/
  | putRange (target : Target) (start count stride : Nat) (strict : Bool)
  | define (target : Target) (key : Key) (request : RequestForm) (strict : Bool)
  | delete (target : Target) (key : Key) (strict : Bool)
  | has (target : Target) (key : Key)
  | hasOwn (target : Target) (key : Key)
  | enumerate (target : Target) (all recursive : Bool)
  | isExtensible (target : Target)
  | preventExtensions (target : Target)
  | prototype (target : Target)
  | setPrototype (target : Target) (link : Option Target) (strict : Bool)
  | elementCount (target : Target)
  | elementAt (target : Target) (position : UInt32)
  | swap (target : Target) (a b : UInt32)
  /-- Sort the elements by their numbers, each one moved down as far as it must. -/
  | sort (target : Target)
  | toTree (value : Operand)
  | isCallable (value : Operand)
  | call (function receiver : Operand) (args : List Operand)
  | kind (target : Target)
  | dump (target : Target)
  | slot (target : Target) (key : Key)
  | writeOwn (target : Target) (key : Key) (value : Operand) (strict : Bool)
  | addOwn (target : Target) (key : Key) (value : Operand) (strict : Bool)
  | defineOwn (target : Target) (key : Key) (request : RequestForm) (strict : Bool)
  | deleteOwn (target : Target) (key : Key) (strict : Bool)
  | relink (target : Target) (link : Option Target)
  | arrayState (target : Target)
  | arraySlot (target : Target) (index : Nat)
  | arraySortSlot (target : Target) (position : Nat)
  | resize (target : Target) (length : Nat) (strict : Bool)
  | edit (name : String) (change : CollectionEdit)

mutual

inductive Step
  | operation (operation : Operation)
  | new (spec : Spec)
  | alloc (spec : Spec)
  | replace (target : Target) (spec : Spec)
  | hold (target : Target) (exclusive : Bool) (steps : Steps)
  /-- Take a step whose fault is its answer. -/
  | attempt (step : Step)

inductive Steps
  | nil
  | cons (step : Step) (rest : Steps)

inductive Spec
  | object (link : Link) (properties : List (Key × Operand))
  | array (link : Link) (values : List Operand)
  | arrayOfLength (length : Nat)
  | string (link : Link) (value : Text)
  | function (link : Link) (name : String) (body : Body)
  | lazy (steps : Steps) (failure : Option Failure) (spec : Spec)
  | collection (link : Link) (collection : Collection) (growable : Bool) (name : Option String)

inductive Body
  | mk (steps : Steps) (failure : Option Failure) (result : Operand)

end

def Steps.ofList : List Step → Steps
  | [] => .nil
  | step :: rest => .cons step (ofList rest)

end ObjectModel.Script
