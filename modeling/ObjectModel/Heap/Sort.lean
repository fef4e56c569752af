import ObjectModel.Heap.Property

/-!
What a sort needs: the positions to visit, the element at a position, and exchanges.

The positions of an array are those of its storage; other objects are visited by index below their
`length`.
-/

namespace ObjectModel

namespace Heap

def maxPositions : Nat := 0xFFFFFFFF

def elementCount (engine : Engine) (id : ObjectId) : Action Nat := do
  match ← read engine id with
  | .array array => return array.sortLength
  | _ => return (← get engine id .length).toNumber.clampToNat maxPositions

def elementAt (engine : Engine) (id : ObjectId) (position : UInt32) : Action Value := do
  match ← read engine id with
  | .array array =>
    match array.sortSlot? position.toNat with
    | some slot => resolve engine slot (.object id)
    | none => return .undefined
  | _ => get engine id (.ofIndex position)

/-- Exchange the positions of an array in its storage; `false` for other objects. -/
def swapStored (a b : UInt32) : Mutation Object Bool := do
  match ← MonadState.get with
  | .array array =>
    set (Object.array (array.sortSwap a.toNat b.toNat))
    return true
  | _ => return false

/-- Exchange the elements at two positions.  Objects that are no arrays are written to like by
anyone else, the first position first. -/
def swap (engine : Engine) (id : ObjectId) (a b : UInt32) : Action Unit := do
  unless ← amend engine id (swapStored a b) do
    let first ← get engine id (.ofIndex a)
    let second ← get engine id (.ofIndex b)
    discard (put engine id (.ofIndex a) second true)
    discard (put engine id (.ofIndex b) first true)

end Heap

end ObjectModel
