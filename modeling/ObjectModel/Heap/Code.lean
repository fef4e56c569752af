import ObjectModel.Heap.Answer

/-!
Native code as data, and the representations of objects in a heap.

Native code is a tree: it ends with a result or a fault, or it performs a command on the heap and
goes on with the outcome, faults included.  A function is represented by the code that it runs for
a receiver and arguments, and a lazy object by the code that builds its representation.  Since code
can allocate representations and representations hold code, the types are defined together.
-/

namespace ObjectModel

inductive Goal
  | reply (form : Reply)
  | representation

/-- An object that shows a host collection, by the address of the collection. -/
structure HostView where
  source : CollectionId
  growable : Bool
  base : OrdinaryObject

mutual

inductive Representation
  | ordinary (object : OrdinaryObject)
  | array (array : ArrayObject)
  | string (string : StringObject)
  | host (view : HostView)
  | function (name : String) (body : Value → List Value → Code (.reply .value))
      (base : OrdinaryObject)
  | pending (factory : Code .representation)
  /-- A lazy object whose factory has been entered and has not succeeded. -/
  | spent

inductive Code : Goal → Type
  | give {reply : Reply} (result : reply.Result) : Code (.reply reply)
  | build (representation : Representation) : Code .representation
  | fail {goal : Goal} (fault : Fault) : Code goal
  | perform {reply : Reply} {goal : Goal} (command : Command reply)
      (next : Except Fault reply.Result → Code goal) : Code goal

/-- An operation on a heap, by the form of its result. -/
inductive Command : Reply → Type
  | allocate (representation : Representation) : Command .handle
  | size : Command .count
  | get (id : ObjectId) (key : Key) (receiver : Value) : Command .value
  | getOwn (id : ObjectId) (key : Key) : Command .value
  | describe (id : ObjectId) (key : Key) : Command .descriptor
  | put (id : ObjectId) (key : Key) (value : Value) (strict : Bool) : Command .flag
  | define (id : ObjectId) (key : Key) (request : Request) (strict : Bool) : Command .flag
  | delete (id : ObjectId) (key : Key) (strict : Bool) : Command .flag
  | has (id : ObjectId) (key : Key) : Command .flag
  | hasOwn (id : ObjectId) (key : Key) : Command .flag
  | enumerate (id : ObjectId) (all recursive : Bool) : Command .keys
  | isExtensible (id : ObjectId) : Command .flag
  | preventExtensions (id : ObjectId) : Command .flag
  | prototype (id : ObjectId) : Command .link
  | setPrototype (id : ObjectId) (prototype : Option ObjectId) (strict : Bool) : Command .flag
  | elementCount (id : ObjectId) : Command .count
  | elementAt (id : ObjectId) (position : UInt32) : Command .value
  | swap (id : ObjectId) (a b : UInt32) : Command .nothing
  | toTree (value : Value) : Command .tree
  | isCallable (value : Value) : Command .flag
  | call (function this : Value) (args : List Value) : Command .value
  | inspect (id : ObjectId) : Command .object
  | inspectAlone (id : ObjectId) : Command .object
  /-- Mutate an own property without regard to the prototype. -/
  | mutate (id : ObjectId) (mutation : OwnMutation) (strict : Bool) : Command .flag
  /-- Replace a prototype link without looking for cycles. -/
  | relink (id : ObjectId) (prototype : Option ObjectId) : Command .nothing
  | resize (id : ObjectId) (length : Nat) (strict : Bool) : Command .resized
  | replace (id : ObjectId) (representation : Representation) : Command .nothing
  | share (collection : Collection) (name : Option String) : Command .source
  | edit (name : String) (edit : CollectionEdit) : Command .collection
  | hold {reply : Reply} (id : ObjectId) (exclusive : Bool) (body : Code (.reply reply)) :
      Command reply
  | note (outcome : Outcome) : Command .nothing

end

abbrev Goal.Result : Goal → Type
  | .reply form => form.Result
  | .representation => Representation

namespace Code

def attempt {before after : Goal} :
    Code before → (Except Fault before.Result → Code after) → Code after
  | .give result, next => next (.ok result)
  | .build representation, next => next (.ok representation)
  | .fail fault, next => next (.error fault)
  | .perform command rest, next => .perform command fun outcome => (rest outcome).attempt next

/-- Run code and go on with its result; a fault ends the code. -/
def andThen {before after : Goal} (code : Code before) (next : before.Result → Code after) :
    Code after :=
  code.attempt fun
    | .ok result => next result
    | .error fault => .fail fault

def ask {reply : Reply} {goal : Goal} (command : Command reply) (next : reply.Result → Code goal) :
    Code goal :=
  .perform command fun
    | .ok result => next result
    | .error fault => .fail fault

end Code

def Representation.isLazy : Representation → Bool
  | .pending _ | .spent => true
  | _ => false

end ObjectModel
