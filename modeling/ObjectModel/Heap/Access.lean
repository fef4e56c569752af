import ObjectModel.Heap.State

/-!
Access to the objects of a heap.

Every access constructs a lazy object first.  Its factory is taken out of the cell before it is
entered, so that it is entered at most once, and its result takes its place under the same handle.
-/

namespace ObjectModel

namespace Heap

def cellOf (id : ObjectId) : Action (ObjectCell Representation) := do
  match (← get).cell? id with
  | some cell => return cell
  | none => Action.failWith (.dangling id)

def install (id : ObjectId) (representation : Representation) : Action Unit := do
  let cell ← cellOf id
  let (_, cell) ← Action.ofExcept (cell.replace representation)
  modify (·.setCell id cell)

/-- Enter the factory of an object that is lazy and install what it builds; `false` if there was
nothing to construct. -/
def enterFactory (engine : Engine) (id : ObjectId) : Action Bool := do
  let cell ← cellOf id
  match ← Action.ofExcept cell.read with
  | .pending factory =>
    install id .spent
    modify (·.record (.factory id))
    let built ← engine.run factory
    install id built
    return true
  | .spent =>
    discard (Action.ofExcept cell.readForWriting)
    Action.failWith .notConstructed
  | _ => return false

/-- Construct an object if it is lazy; what its factory builds may be lazy again.  At most `depth`
factories are entered one after another. -/
def constructWithin (engine : Engine) (id : ObjectId) : (depth : Nat) → Action Unit
  | 0 => do
    if ← enterFactory engine id then Action.exhausted
  | depth + 1 => do
    if ← enterFactory engine id then constructWithin engine id depth

def construct (engine : Engine) (id : ObjectId) : Action Unit :=
  constructWithin engine id engine.depth

def read (engine : Engine) (id : ObjectId) : Action Representation := do
  construct engine id
  Action.ofExcept (← cellOf id).read

def viewOf (representation : Representation) : Action Object := do
  match (← get).view? representation with
  | some object => return object
  | none => Action.failWith .notConstructed

def inspect (engine : Engine) (id : ObjectId) : Action Object := do
  viewOf (← read engine id)

def inspectAlone (engine : Engine) (id : ObjectId) : Action Object := do
  construct engine id
  viewOf (← Action.ofExcept (← cellOf id).readForWriting)

/-- Mutate an object in its cell; what the mutation has done before a fault is stored as well. -/
def amend {α : Type} (engine : Engine) (id : ObjectId) (change : Mutation Object α) :
    Action α := do
  construct engine id
  let cell ← cellOf id
  let object ← viewOf (← Action.ofExcept cell.readForWriting)
  let (outcome, object) := change.on object
  modify (·.store id cell object)
  Action.ofExcept outcome

def allocate (representation : Representation) : Action ObjectId := do
  let heap ← get
  set { heap with cells := heap.cells.push (.new representation) }
  return ⟨heap.size⟩

def replace (engine : Engine) (id : ObjectId) (representation : Representation) : Action Unit := do
  construct engine id
  install id representation

def share (collection : Collection) (name : Option String) : Action CollectionId := do
  let heap ← get
  let id : CollectionId := ⟨heap.collections.size⟩
  set
    { heap with
      collections := heap.collections.push collection
      names := (name.map fun name => (name, id)).toList ++ heap.names }
  return id

def edit (name : String) (edit : CollectionEdit) : Action (Option Collection) := do
  let heap ← get
  match heap.named? name with
  | none => return none
  | some id =>
    let edited := (heap.collection? id).map (·.edit edit)
    set (edited.elim heap (heap.setCollection id))
    return edited

def hold {goal : Goal} (engine : Engine) (id : ObjectId) (exclusive : Bool) (body : Code goal) :
    Action goal.Result := do
  construct engine id
  let cell ← cellOf id
  let held ← Action.ofExcept (if exclusive then cell.borrowExclusive else cell.borrowShared)
  modify (·.setCell id held)
  let outcome ← Action.attempt (engine.run body)
  let cell ← cellOf id
  modify (·.setCell id cell.release)
  Action.ofExcept outcome

end Heap

end ObjectModel
