import ObjectModel.Object.Basic

/-!
What operations on a heap answer, and the events that a heap records.
-/

namespace ObjectModel

inductive Answer
  | nothing
  | value (v : Value)
  | flag (b : Bool)
  | count (n : Nat)
  | size (n : Nat)
  | keys (keys : List Key)
  | descriptor (found : Option Descriptor)
  | slot (found : Option Slot)
  | kind (kind : ObjectKind) (isLazy isArray : Bool)
  | object (object : Object)
  | array (array : ArrayObject)
  | notArray
  | tree (tree : Tree)
  | collection (found : Option Collection)
  | text (text : String)
  | tried (answer : Answer)
  | failed (fault : Fault)
  | outcomes (outcomes : List (Except Fault Answer))

abbrev Outcome : Type := Except Fault Answer

/-- What happens while native code runs, in order. -/
inductive Event
  | call (name : String) (this : Value) (args : List Value)
  | factory (id : ObjectId)
  | step (outcome : Outcome)

/-- The address of a collection that a host and a heap share. -/
structure CollectionId where
  index : Nat
  deriving DecidableEq, Repr

inductive Reply
  | nothing
  | flag
  | count
  | value
  | handle
  | link
  | keys
  | descriptor
  | object
  | tree
  | resized
  | source
  | collection
  | answer
  deriving DecidableEq, Repr

abbrev Reply.Result : Reply → Type
  | .nothing => Unit
  | .flag => Bool
  | .count => Nat
  | .value => Value
  | .handle => ObjectId
  | .link => Option ObjectId
  | .keys => List Key
  | .descriptor => Option Descriptor
  | .object => Object
  | .tree => Tree
  | .resized => Option Bool
  | .source => CollectionId
  | .collection => Option Collection
  | .answer => Answer

end ObjectModel
