import ObjectModel.Heap.Cell
import ObjectModel.Heap.Code

/-!
The state of a heap, and actions on it.

A heap is a list of cells, one for each handle, the collections it shares with its host, and the
record of the native code that ran.  An action ends with a result or a fault, and what it did
before a fault stays done.  It may also not end within the depth of calls that it is given; then it
has no outcome at all.
-/

namespace ObjectModel

structure Heap where
  cells : Array (ObjectCell Representation)
  policy : Policy
  collections : Array Collection
  /-- The collections that have names, the latest first. -/
  names : List (String × CollectionId)
  /-- What happened, the latest first. -/
  log : List Event

namespace Heap

/-- The object that is the end of the standard prototype chains. -/
def objectPrototype : ObjectId := ⟨0⟩

def functionPrototype : ObjectId := ⟨1⟩

def arrayPrototype : ObjectId := ⟨2⟩

def stringPrototype : ObjectId := ⟨3⟩

def new (policy : Policy) : Heap where
  cells :=
    #[.new (.ordinary (.new none)),
      .new (.ordinary (.new (some objectPrototype))),
      .new (.array (.new (some objectPrototype) policy)),
      .new (.string (.new .empty (some objectPrototype)))]
  policy := policy
  collections := #[]
  names := []
  log := []

def size (heap : Heap) : Nat := heap.cells.size

def cell? (heap : Heap) (id : ObjectId) : Option (ObjectCell Representation) :=
  heap.cells[id.index]?

def setCell (heap : Heap) (id : ObjectId) (cell : ObjectCell Representation) : Heap :=
  { heap with cells := heap.cells.setIfInBounds id.index cell }

def record (heap : Heap) (event : Event) : Heap := { heap with log := event :: heap.log }

def collection? (heap : Heap) (id : CollectionId) : Option Collection :=
  heap.collections[id.index]?

def named? (heap : Heap) (name : String) : Option CollectionId := heap.names.lookup name

def setCollection (heap : Heap) (id : CollectionId) (collection : Collection) : Heap :=
  { heap with collections := heap.collections.setIfInBounds id.index collection }

/-- The own properties that a representation stands for; a lazy object has none yet. -/
def view? (heap : Heap) : Representation → Option Object
  | .ordinary object => some (.ordinary object)
  | .array array => some (.array array)
  | .string string => some (.string string)
  | .function _ _ base => some (.function base)
  | .host view =>
    (heap.collection? view.source).map fun
      | .map entries => .map ⟨entries, view.growable, view.base⟩
      | .sequence items => .sequence ⟨items, view.growable, view.base⟩
  | .pending _ | .spent => none

/-- The representation of an object that was represented another way before its properties were
mutated: functions keep their code, and views their collection. -/
def represent (old : Representation) : Object → Representation
  | .ordinary object => .ordinary object
  | .array array => .array array
  | .string string => .string string
  | .map view =>
    match old with
    | .host host => .host { host with growable := view.growable, base := view.base }
    | _ => old
  | .sequence view =>
    match old with
    | .host host => .host { host with growable := view.resizable, base := view.base }
    | _ => old
  | .function base =>
    match old with
    | .function name body _ => .function name body base
    | _ => old

def shown? : Object → Option Collection
  | .map view => some (.map view.entries)
  | .sequence view => some (.sequence view.items)
  | _ => none

/-- The heap after the object in a cell has been mutated, its collection included. -/
def store (heap : Heap) (id : ObjectId) (cell : ObjectCell Representation) (object : Object) :
    Heap :=
  let heap := heap.setCell id { cell with value := represent cell.value object }
  match cell.value, shown? object with
  | .host host, some collection => heap.setCollection host.source collection
  | _, _ => heap

def describe (size : Nat) : String :=
  let handle := fun (id : ObjectId) => "ObjectId(" ++ toString id.index ++ ")"
  "Heap \x7b objects: " ++ toString size ++
    ", intrinsics: Intrinsics \x7b object_prototype: " ++ handle objectPrototype ++
    ", function_prototype: " ++ handle functionPrototype ++
    ", array_prototype: " ++ handle arrayPrototype ++
    ", string_prototype: " ++ handle stringPrototype ++ " \x7d \x7d"

end Heap

abbrev Action : Type → Type := ExceptT Fault (StateT Heap Option)

namespace Action

variable {α : Type}

def exhausted : Action α := ExceptT.mk (StateT.lift none)

def ofExcept (outcome : Except Fault α) : Action α := ExceptT.mk (pure outcome)

def reject (strict : Bool) (why : Refusal) : Action Bool :=
  ofExcept (ObjectModel.reject strict why)

def attempt (action : Action α) : Action (Except Fault α) :=
  ExceptT.mk do return .ok (← action.run)

def failWith (why : HeapFault) : Action α := throw (.internal why)

end Action

/-- What runs native code: a bound for the depth of calls, and the code one level deeper. -/
structure Engine where
  depth : Nat
  run : {goal : Goal} → Code goal → Action goal.Result

end ObjectModel
