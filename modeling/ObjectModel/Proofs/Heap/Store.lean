import ObjectModel.Heap.Access
import ObjectModel.Proofs.Heap.Action

/-!
# Cells of a heap

What is found under a handle, which cell is found after a change of the heap, and the objects that
the heap represents by itself, without a host.
-/

namespace ObjectModel

/-- The object that a representation stands for without a host and without further construction. -/
def Representation.native? : Representation → Option Object
  | .ordinary inner => some (.ordinary inner)
  | .array inner => some (.array inner)
  | .string inner => some (.string inner)
  | .function _ _ base => some (.function base)
  | .host _ | .pending _ | .spent => none

namespace ObjectCell

variable {α : Type} {cell held : ObjectCell α}

theorem exists_of_borrowShared (taken : cell.borrowShared = .ok held) :
    ∃ borrow, held = { cell with borrow } := by
  unfold borrowShared at taken
  split at taken
  next => exact ⟨_, (Except.ok.inj taken).symm⟩
  next => exact ⟨_, (Except.ok.inj taken).symm⟩
  next => cases taken

theorem exists_of_borrowExclusive (taken : cell.borrowExclusive = .ok held) :
    ∃ borrow, held = { cell with borrow } := by
  unfold borrowExclusive at taken
  split at taken
  next => exact ⟨_, (Except.ok.inj taken).symm⟩
  next => cases taken

theorem exists_release_eq (cell : ObjectCell α) :
    ∃ borrow, cell.release = { cell with borrow } ∧ (cell.borrow = .free → borrow = .free) := by
  unfold release
  split
  next held => exact ⟨_, rfl, fun free => by rw [free] at held; cases held⟩
  next => exact ⟨_, rfl, fun _ => rfl⟩

end ObjectCell

namespace Heap

variable {heap : Heap} {id : ObjectId} {cell : ObjectCell Representation}

theorem length_le_size {path : List ObjectId} (nodup : path.Nodup)
    (inside : ∀ id ∈ path, id.index < heap.size) : path.length ≤ heap.size := by
  have distinct : (path.map ObjectId.index).Nodup := by
    refine List.Pairwise.map ObjectId.index ?_ nodup
    intro a b different same
    exact different (congrArg ObjectId.mk same)
  have below : path.map ObjectId.index ⊆ List.range heap.size := by
    intro index member
    obtain ⟨id, memberPath, rfl⟩ := List.mem_map.mp member
    exact List.mem_range.mpr (inside id memberPath)
  have short := distinct.length_le_of_subset below
  rw [List.length_map, List.length_range] at short
  exact short

theorem cell?_setCell (found : heap.cell? id = some cell)
    (next : ObjectCell Representation) (other : ObjectId) :
    (heap.setCell id next).cell? other = if other = id then some next else heap.cell? other := by
  have inside : id.index < heap.cells.size := by
    obtain ⟨inside, _⟩ := Array.getElem?_eq_some_iff.mp found
    exact inside
  unfold setCell cell?
  split
  next here =>
    rw [here]
    exact Array.getElem?_setIfInBounds_self_of_lt inside
  next elsewhere =>
    apply Array.getElem?_setIfInBounds_ne
    intro same
    exact elsewhere (congrArg ObjectId.mk same).symm

theorem setCell_self (found : heap.cell? id = some cell) : heap.setCell id cell = heap := by
  have same : heap.cells.setIfInBounds id.index cell = heap.cells := by
    apply Array.ext_getElem?
    intro index
    rw [Array.getElem?_setIfInBounds]
    split
    next here =>
      rw [← here, if_pos (Array.getElem?_eq_some_iff.mp found).1]
      exact found.symm
    next => rfl
  unfold setCell
  rw [same]

theorem cell?_store (found : heap.cell? id = some cell) (object : Object) (other : ObjectId) :
    (heap.store id cell object).cell? other =
      if other = id then some { cell with value := represent cell.value object }
      else heap.cell? other := by
  have replaced := cell?_setCell found { cell with value := represent cell.value object } other
  unfold store
  simp only
  split
  next => exact replaced
  next => exact replaced

theorem cell?_push (heap : Heap) (cell : ObjectCell Representation) (id : ObjectId) :
    ({ heap with cells := heap.cells.push cell } : Heap).cell? id =
      if id.index = heap.cells.size then some cell else heap.cell? id :=
  Array.getElem?_push

def native? (heap : Heap) (id : ObjectId) : Option Object :=
  (heap.cell? id).bind fun cell => cell.value.native?

theorem native?_eq_some_iff (heap : Heap) {representation : Representation} {object : Object} :
    representation.native? = some object ↔
      heap.view? representation = some object ∧ object.kind ≠ .host := by
  cases representation
  case host view =>
    constructor
    · intro same
      cases same
    · rintro ⟨viewed, native⟩
      obtain ⟨collection, _, rfl⟩ := Option.map_eq_some_iff.mp viewed
      cases collection <;> exact absurd rfl native
  case pending factory => simp [Representation.native?, view?]
  case spent => simp [Representation.native?, view?]
  all_goals
    constructor
    · intro same
      cases same
      refine ⟨rfl, ?_⟩
      intro isHost
      cases isHost
    · exact And.left

theorem represent_native {old : Representation} {object : Object}
    (found : old.native? = some object) : represent old object = old := by
  cases old
  case host view => cases found
  case pending factory => cases found
  case spent => cases found
  all_goals
    cases found
    rfl

theorem native?_represent {old : Representation} {object next : Object}
    (found : old.native? = some object) (kind : next.kind = object.kind) :
    (represent old next).native? = some next := by
  cases old
  case ordinary inner =>
    cases found
    cases next <;> first | rfl | cases kind
  case array inner =>
    cases found
    cases next <;> first | rfl | cases kind
  case string inner =>
    cases found
    cases next <;> first | rfl | cases kind
  case function name body base =>
    cases found
    cases next <;> first | rfl | cases kind
  all_goals cases found

def held (heap : Heap) (id : ObjectId) : Except Fault (ObjectCell Representation) :=
  match heap.cell? id with
  | some cell => .ok cell
  | none => .error (.internal (.dangling id))

def viewed (heap : Heap) (representation : Representation) : Except Fault Object :=
  match heap.view? representation with
  | some object => .ok object
  | none => .error (.internal .notConstructed)

theorem on_cellOf (heap : Heap) (id : ObjectId) :
    (cellOf id).on heap = some (heap.held id, heap) := by
  unfold cellOf held
  rw [Action.on_bind_ok (Action.on_get heap)]
  cases heap.cell? id <;> rfl

theorem on_viewOf (heap : Heap) (representation : Representation) :
    (viewOf representation).on heap = some (heap.viewed representation, heap) := by
  unfold viewOf viewed
  rw [Action.on_bind_ok (Action.on_get heap)]
  cases heap.view? representation <;> rfl

theorem cell?_of_held {heap : Heap} {id : ObjectId} {cell : ObjectCell Representation}
    (held : heap.held id = .ok cell) : heap.cell? id = some cell := by
  unfold Heap.held at held
  split at held
  next found =>
    cases held
    exact found
  next => cases held

theorem value_of_read {cell : ObjectCell Representation} {representation : Representation}
    (read : cell.read = .ok representation) : cell.value = representation := by
  unfold ObjectCell.read at read
  split at read
  next => cases read
  next => exact Except.ok.inj read

theorem of_readForWriting {cell : ObjectCell Representation} {representation : Representation}
    (read : cell.readForWriting = .ok representation) : cell = .new representation := by
  obtain ⟨value, borrow⟩ := cell
  unfold ObjectCell.readForWriting at read
  cases borrow
  case free =>
    cases read
    rfl
  all_goals cases read

theorem view?_of_viewed {heap : Heap} {representation : Representation} {object : Object}
    (viewed : heap.viewed representation = .ok object) :
    heap.view? representation = some object := by
  unfold Heap.viewed at viewed
  split at viewed
  next found =>
    cases viewed
    exact found
  next => cases viewed

theorem setCollection_self {source : CollectionId} {collection : Collection}
    (found : heap.collection? source = some collection) :
    heap.setCollection source collection = heap := by
  have same : heap.collections.setIfInBounds source.index collection = heap.collections := by
    apply Array.ext_getElem?
    intro index
    rw [Array.getElem?_setIfInBounds]
    split
    next here =>
      rw [← here, if_pos (Array.getElem?_eq_some_iff.mp found).1]
      exact found.symm
    next => rfl
  unfold setCollection
  rw [same]

theorem store_self (found : heap.cell? id = some cell)
    (viewed : heap.view? cell.value = some object) : heap.store id cell object = heap := by
  obtain ⟨representation, borrow⟩ := cell
  cases representation
  case host view =>
    obtain ⟨collection, shared, rfl⟩ := Option.map_eq_some_iff.mp viewed
    cases collection
    all_goals
      simp only [store, represent, shown?, setCell_self found]
      exact setCollection_self shared
  case pending factory => cases viewed
  case spent => cases viewed
  all_goals
    cases viewed
    simp only [store, represent]
    exact setCell_self found

end Heap

end ObjectModel
