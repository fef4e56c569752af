import ObjectModel.Heap.Property

/-!
Export of values to plain trees.

Arrays become lists of their full length, holes included, and other objects maps of their
enumerable own properties.  String objects and views on host collections are leaves.  An object that
lies on the path to itself cannot be exported.
-/

namespace ObjectModel

namespace Heap

/-- The results of an action at `count` indices from `index` on, behind those collected before, the
latest first. -/
def collectFrom {α : Type} (action : Nat → Action α) :
    (count index : Nat) → (collected : List α) → Action (List α)
  | 0, _, collected => return collected.reverse
  | count + 1, index, collected => do
    let result ← action index
    collectFrom action count (index + 1) (result :: collected)

/-- The tree of a value that is reached through the objects on `path`; at most `depth` more objects
are entered on the way down. -/
def exportWithin (engine : Engine) : (depth : Nat) → (path : List ObjectId) → Value → Action Tree
  | _, _, .undefined => return .null
  | _, _, .null => return .null
  | _, _, .boolean b => return .boolean b
  | _, _, .number n => return .ofNumber n
  | _, _, .text t => return .text t.toString
  | 0, _, .object _ => Action.exhausted
  | depth + 1, path, .object id => do
    if id ∈ path then throw (.typeMismatch .circular)
    match ← inspect engine id with
    | .string string => return .text string.value.toString
    | .map view => return view.toTree
    | .sequence view => return view.toTree
    | .array array =>
      let element := fun i => do
        let item ← getOwn engine id (.ofIndex (UInt32.ofNat i))
        exportWithin engine depth (id :: path) item
      return .list (← collectFrom element array.length 0 [])
    | .ordinary _ | .function _ =>
      let keys ← enumerate engine id false false
      let entries ← keys.mapM fun key => do
        let item ← get engine id key
        return (key.display, ← exportWithin engine depth (id :: path) item)
      return .ofEntries entries

def toTree (engine : Engine) (value : Value) : Action Tree :=
  exportWithin engine engine.depth [] value

end Heap

end ObjectModel
