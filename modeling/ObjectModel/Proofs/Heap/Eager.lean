import ObjectModel.Proofs.Outcome
import ObjectModel.Proofs.Verdict.Heap

/-!
# Heaps without lazy objects

As long as no object is lazy, looking at objects changes nothing, and what is found is a function of
the heap.  A mutation changes the one object that it is meant for.
-/

namespace ObjectModel

namespace Heap

/-- Whether no object of a heap is lazy. -/
def Eager (heap : Heap) : Prop :=
  ∀ id cell, heap.cell? id = some cell → cell.value.isLazy = false

/-- Whether the object of a handle, if there is one, is not lazy. -/
def Ready (heap : Heap) (id : ObjectId) : Prop :=
  ∀ cell, heap.cell? id = some cell → cell.value.isLazy = false

def look (heap : Heap) (id : ObjectId) : Except Fault Representation :=
  (heap.held id).bind ObjectCell.read

def examine (heap : Heap) (id : ObjectId) : Except Fault Object :=
  (heap.look id).bind heap.viewed

/-- The cell of an object and the object in it, for a moment of writing. -/
def grasp (heap : Heap) (id : ObjectId) : Except Fault (ObjectCell Representation × Object) :=
  (heap.look id).bind fun _ => (heap.held id).bind fun cell =>
    cell.readForWriting.bind fun representation =>
      (heap.viewed representation).map fun object => (cell, object)

/-- The property at a key of the first of at most `depth` objects on a prototype chain that has
one. -/
def foundWithin (heap : Heap) (key : Key) : (depth : Nat) → ObjectId → Except Fault (Option Slot)
  | 0, _ => .error (.internal .chainTooDeep)
  | depth + 1, id =>
    (heap.examine id).bind fun object =>
      match object.getOwn key, object.prototype with
      | some slot, _ => .ok (some slot)
      | none, some next => heap.foundWithin key depth next
      | none, none => .ok none

/-- Whether at most `depth` prototype links from `cursor` lead to `id`. -/
def linksTo (heap : Heap) (id : ObjectId) :
    (depth : Nat) → (cursor : Option ObjectId) → Except Fault Bool
  | _, none => .ok false
  | 0, some next => if next = id then .ok true else .error (.internal .chainTooDeep)
  | depth + 1, some next =>
    if next = id then .ok true
    else ((heap.examine next).map Object.prototype).bind (heap.linksTo id depth)

theorem cell?_of_look {heap : Heap} {id : ObjectId} {representation : Representation}
    (looked : heap.look id = .ok representation) :
    ∃ cell, heap.cell? id = some cell ∧ cell.value = representation := by
  obtain ⟨cell, held, read⟩ := exists_of_bind_eq_ok looked
  exact ⟨cell, cell?_of_held held, value_of_read read⟩

theorem grasp_eq {heap : Heap} {id : ObjectId} {cell : ObjectCell Representation}
    {object : Object} (found : heap.cell? id = some cell)
    (viewed : heap.view? cell.value = some object) :
    heap.grasp id =
      match cell.borrow with
      | .free => .ok (cell, object)
      | .shared _ => .error (.internal .alreadyBorrowed)
      | .exclusive => .error (.internal .beingModified) := by
  cases borrow : cell.borrow <;>
    simp only [grasp, look, held, found, Except.bind, ObjectCell.read, ObjectCell.readForWriting,
      borrow, Heap.viewed, viewed, Except.map]

theorem of_grasp {heap : Heap} {id : ObjectId} {cell : ObjectCell Representation}
    {object : Object} (grasped : heap.grasp id = .ok (cell, object)) :
    heap.cell? id = some cell ∧ heap.view? cell.value = some object ∧
      heap.examine id = .ok object := by
  obtain ⟨seen, looked, grasped⟩ := exists_of_bind_eq_ok grasped
  obtain ⟨own, held, grasped⟩ := exists_of_bind_eq_ok grasped
  obtain ⟨representation, reading, grasped⟩ := exists_of_bind_eq_ok grasped
  obtain ⟨viewed, viewing, same⟩ := exists_of_map_eq_ok grasped
  cases same
  have found : heap.cell? id = some cell := cell?_of_held held
  obtain ⟨other, foundOther, rfl⟩ := cell?_of_look looked
  rw [found] at foundOther
  cases foundOther
  have value : cell.value = representation := congrArg ObjectCell.value (of_readForWriting reading)
  refine ⟨found, ?_, ?_⟩
  · rw [value]
    exact view?_of_viewed viewing
  · unfold examine
    rw [looked, value]
    exact viewing

namespace Ready

variable {heap : Heap} {id : ObjectId}

theorem of_found {cell : ObjectCell Representation} (found : heap.cell? id = some cell)
    (eager : cell.value.isLazy = false) : heap.Ready id := by
  intro other foundOther
  rw [found] at foundOther
  cases foundOther
  exact eager

theorem on_enterFactory (ready : heap.Ready id) (engine : Engine) :
    (enterFactory engine id).on heap = some ((heap.look id).map fun _ => false, heap) := by
  have constructed : (enterFactory engine id).on heap =
      some ((heap.held id).bind fun cell => cell.read.bind fun _ => .ok false, heap) := by
    apply Action.on_bind_reading (on_cellOf heap id)
    intro cell found
    apply Action.on_bind_reading (Action.on_ofExcept _ heap)
    intro representation read
    have notLazy := ready cell (cell?_of_held found)
    rw [value_of_read read] at notLazy
    cases representation <;> first | rfl | cases notLazy
  rw [constructed, look]
  rcases heap.held id with _ | cell
  · rfl
  · simp only [Except.bind]
    cases cell.read <;> rfl

theorem on_constructWithin (ready : heap.Ready id) (engine : Engine) (depth : Nat) :
    (constructWithin engine id depth).on heap = some ((heap.look id).map fun _ => (), heap) := by
  have entered := ready.on_enterFactory engine
  cases depth <;> unfold constructWithin
  all_goals
    rw [Action.on_bind, entered]
    cases heap.look id <;> rfl

theorem on_construct (ready : heap.Ready id) (engine : Engine) :
    (construct engine id).on heap = some ((heap.look id).map fun _ => (), heap) :=
  ready.on_constructWithin engine engine.depth

theorem on_read (ready : heap.Ready id) (engine : Engine) :
    (read engine id).on heap = some (heap.look id, heap) := by
  have constructed : (read engine id).on heap =
      some (((heap.look id).map fun _ => ()).bind fun _ => heap.look id, heap) := by
    apply Action.on_bind_reading (ready.on_construct engine)
    intro _ _
    apply Action.on_bind_reading (on_cellOf heap id)
    intro cell _
    exact Action.on_ofExcept _ heap
  rw [constructed]
  cases heap.look id <;> rfl

theorem on_inspect (ready : heap.Ready id) (engine : Engine) :
    (inspect engine id).on heap = some (heap.examine id, heap) := by
  apply Action.on_bind_reading (ready.on_read engine)
  intro representation _
  exact on_viewOf heap representation

/-- A mutation stores the mutated object, or fails without any change. -/
theorem on_judge {α : Type} (ready : heap.Ready id) (engine : Engine)
    (change : Object → Except Fault (α × Object)) :
    (judge engine id change).on heap =
      some (match heap.grasp id with
        | .error fault => (.error fault, heap)
        | .ok (cell, object) =>
          match change object with
          | .error fault => (.error fault, heap)
          | .ok (result, next) => (.ok result, heap.store id cell next)) := by
  unfold judge grasp
  rw [Action.on_bind, ready.on_construct]
  cases heap.look id with
  | error fault => rfl
  | ok _ =>
    simp only [Except.map, Except.bind, Action.on_bind, on_cellOf, Action.on_ofExcept]
    cases heap.held id with
    | error fault => rfl
    | ok cell =>
      simp only
      cases cell.readForWriting with
      | error fault => rfl
      | ok representation =>
        simp only [on_viewOf]
        cases heap.viewed representation with
        | error fault => rfl
        | ok object =>
          simp only
          cases change object <;> rfl

end Ready

namespace Eager

variable {heap : Heap}

theorem ready (eager : heap.Eager) (id : ObjectId) : heap.Ready id := eager id

theorem on_inspect (eager : heap.Eager) (engine : Engine) (id : ObjectId) :
    (inspect engine id).on heap = some (heap.examine id, heap) :=
  (eager.ready id).on_inspect engine

theorem on_prototypeOf (eager : heap.Eager) (engine : Engine) (id : ObjectId) :
    (prototypeOf engine id).on heap = some ((heap.examine id).map Object.prototype, heap) := by
  have inspected := Action.on_bind_reading (eager.on_inspect engine id)
    fun object _ => Action.on_pure object.prototype heap
  exact inspected

theorem on_lookupWithin (eager : heap.Eager) (engine : Engine) (key : Key) (depth : Nat)
    (id : ObjectId) :
    (lookupWithin engine key depth id).on heap = some (heap.foundWithin key depth id, heap) := by
  induction depth generalizing id with
  | zero => rfl
  | succ depth inductionHypothesis =>
    apply Action.on_bind_reading (eager.on_inspect engine id)
    intro object _
    cases object.getOwn key with
    | some slot => rfl
    | none =>
      cases object.prototype with
      | some next => exact inductionHypothesis next
      | none => rfl

theorem on_lookup (eager : heap.Eager) (engine : Engine) (id : ObjectId) (key : Key) :
    (lookup engine id key).on heap =
      some (heap.foundWithin key heap.policy.maxPrototypeDepth id, heap) := by
  unfold lookup
  rw [Action.on_bind_ok (Action.on_get heap)]
  exact eager.on_lookupWithin engine key _ id

theorem on_inherited (eager : heap.Eager) (engine : Engine) (id : ObjectId) (key : Key) :
    (inherited engine id key).on heap =
      some (((heap.examine id).map Object.prototype).bind fun link =>
        match link with
        | some next => heap.foundWithin key heap.policy.maxPrototypeDepth next
        | none => .ok none, heap) := by
  apply Action.on_bind_reading (eager.on_prototypeOf engine id)
  intro link _
  cases link with
  | some next => exact eager.on_lookup engine next key
  | none => rfl

theorem on_leadsTo (eager : heap.Eager) (engine : Engine) (id : ObjectId) (depth : Nat)
    (cursor : Option ObjectId) :
    (leadsTo engine id depth cursor).on heap = some (heap.linksTo id depth cursor, heap) := by
  induction depth generalizing cursor with
  | zero =>
    cases cursor with
    | none => rfl
    | some next =>
      unfold leadsTo linksTo
      split <;> rfl
  | succ depth inductionHypothesis =>
    cases cursor with
    | none => rfl
    | some next =>
      unfold leadsTo linksTo
      split
      next => rfl
      next =>
        apply Action.on_bind_reading (eager.on_prototypeOf engine next)
        intro link _
        exact inductionHypothesis link

end Eager

end Heap

end ObjectModel
