import ObjectModel.Proofs.Heap.Atomicity
import ObjectModel.Proofs.Heap.Tidy

/-!
# What an amendment leaves under its handle

To amend an object that is not lazy, a view on a collection included, fails and changes nothing, or
the amended object is found under the handle.
-/

namespace ObjectModel

theorem Object.isMap_mutate {object next : Object} {mutation : OwnMutation} {verdict : Verdict}
    (done : object.mutate mutation = .ok (verdict, next)) : next.isMap = object.isMap := by
  cases mutates_of_mutate done <;> rfl

namespace Heap

variable {heap after : Heap} {id : ObjectId} {cell : ObjectCell Representation}
  {object next : Object} {α : Type} {change : Object → Except Fault (α × Object)}

/-- Whether a change of objects leaves them what they are. -/
def Retains (change : Object → Except Fault (α × Object)) : Prop :=
  ∀ {object result next}, change object = .ok (result, next) →
    next.kind = object.kind ∧ next.isMap = object.isMap

theorem retains_mutate (mutation : OwnMutation) : Retains (·.mutate mutation) :=
  fun done => ⟨Object.kind_mutate done, Object.isMap_mutate done⟩

theorem retains_setPrototype (prototype : Option ObjectId) :
    Retains fun object => .ok ((), object.setPrototype prototype) := by
  intro object _ next done
  cases done
  have rearranges : object.Rearranges (fun _ => True) (object.setPrototype prototype) :=
    object.rearranges_setPrototype prototype
  exact ⟨rearranges.kind, rearranges.isMap⟩

theorem free_of_grasp (grasped : heap.grasp id = .ok (cell, object)) : cell.borrow = .free := by
  obtain ⟨found, viewed, _⟩ := of_grasp grasped
  rw [grasp_eq found viewed] at grasped
  cases borrow : cell.borrow with
  | free => rfl
  | shared readers =>
    rw [borrow] at grasped
    cases grasped
  | exclusive =>
    rw [borrow] at grasped
    cases grasped

theorem exists_grasp_store (grasped : heap.grasp id = .ok (cell, object))
    (kind : next.kind = object.kind) (isMap : next.isMap = object.isMap) :
    ∃ stored, (heap.store id cell next).grasp id = .ok (stored, next) := by
  obtain ⟨found, viewed, _⟩ := of_grasp grasped
  have free := free_of_grasp grasped
  refine ⟨{ cell with value := represent cell.value next }, ?_⟩
  rw [grasp_eq ((cell?_store found next id).trans (if_pos rfl)) (shows_store viewed kind isMap).2]
  simp only [free]

/-- How an amendment of an object ends. -/
inductive Amended (heap : Heap) (id : ObjectId) (object : Object)
    (change : Object → Except Fault (α × Object)) : Except Fault α → Heap → Prop
  | failed (fault : Fault) : Amended heap id object change (.error fault) heap
  | changed {result : α} {next : Object} {after : Heap}
      (done : change object = .ok (result, next)) (seen : after.object? id = some next) :
      Amended heap id object change (.ok result) after

theorem exists_amended (seen : heap.object? id = some object) (engine : Engine)
    (retains : Retains change) :
    ∃ outcome after, (judge engine id change).on heap = some (outcome, after) ∧
      heap.Amended id object change outcome after := by
  obtain ⟨cell, found, viewed⟩ := Option.bind_eq_some_iff.mp seen
  rw [(ready_of_view found viewed).on_judge]
  cases grasped : heap.grasp id with
  | error fault => exact ⟨_, _, rfl, .failed fault⟩
  | ok held =>
    obtain ⟨own, other⟩ := held
    cases seen.symm.trans (object?_of_examine (of_grasp grasped).2.2)
    simp only
    cases changed : change object with
    | error fault => exact ⟨_, _, rfl, .failed fault⟩
    | ok ended =>
      obtain ⟨kind, isMap⟩ := retains changed
      obtain ⟨stored, graspedAfter⟩ := exists_grasp_store grasped kind isMap
      exact ⟨_, _, rfl, .changed changed (object?_of_examine (of_grasp graspedAfter).2.2)⟩

/-- An amendment that succeeds leaves the changed object, whatever has been constructed before. -/
theorem exists_grasp_of_on_judge {engine : Engine} {result : α} (retains : Retains change)
    (ran : (judge engine id change).on heap = some (.ok result, after)) :
    ∃ object next stored, change object = .ok (result, next) ∧
      after.grasp id = .ok (stored, next) := by
  obtain ⟨mid, cell, object, next, _, grasped, changed, rfl⟩ := exists_of_on_judge ran
  obtain ⟨kind, isMap⟩ := retains changed
  obtain ⟨stored, graspedAfter⟩ := exists_grasp_store grasped kind isMap
  exact ⟨object, next, stored, changed, graspedAfter⟩

/-- An amendment that succeeds has found the object that was there as nobody held it. -/
theorem exists_grasps_of_on_judge {engine : Engine} {result : α}
    (seen : heap.object? id = some object) (retains : Retains change)
    (ran : (judge engine id change).on heap = some (.ok result, after)) :
    ∃ cell next stored, heap.grasp id = .ok (cell, object) ∧
      change object = .ok (result, next) ∧ after.grasp id = .ok (stored, next) := by
  obtain ⟨mid, cell, other, next, constructed, grasped, changed, rfl⟩ := exists_of_on_judge ran
  -- The object is there already, so no factory runs between the look at it and its change.
  obtain ⟨own, found, viewed⟩ := Option.bind_eq_some_iff.mp seen
  rw [(ready_of_view found viewed).on_construct] at constructed
  obtain ⟨_, rfl⟩ := Prod.mk.inj (Option.some.inj constructed)
  cases seen.symm.trans (object?_of_examine (of_grasp grasped).2.2)
  obtain ⟨kind, isMap⟩ := retains changed
  obtain ⟨stored, graspedAfter⟩ := exists_grasp_store grasped kind isMap
  exact ⟨cell, next, stored, grasped, changed, graspedAfter⟩

theorem Ready.exists_store_of_on_judge (ready : heap.Ready id) {engine : Engine} {result : α}
    (ran : (judge engine id change).on heap = some (.ok result, after)) :
    ∃ cell object next, heap.grasp id = .ok (cell, object) ∧
      change object = .ok (result, next) ∧ after = heap.store id cell next := by
  rw [ready.on_judge] at ran
  cases grasped : heap.grasp id with
  | error fault =>
    rw [grasped] at ran
    cases ran
  | ok held =>
    obtain ⟨cell, object⟩ := held
    simp only [grasped] at ran
    cases changed : change object with
    | error fault =>
      rw [changed] at ran
      cases ran
    | ok ended =>
      obtain ⟨_, next⟩ := ended
      rw [changed] at ran
      cases ran
      exact ⟨cell, object, next, rfl, changed, rfl⟩

theorem Eager.store (eager : heap.Eager) (found : heap.cell? id = some cell) (next : Object) :
    (heap.store id cell next).Eager := by
  intro other own foundOwn
  rw [cell?_store found] at foundOwn
  split at foundOwn
  next =>
    cases foundOwn
    exact isLazy_represent cell.value next (eager id cell found)
  next => exact eager other own foundOwn

/-- A new heap with one handle more, which is that of a view on a collection. -/
def withView (collection : Collection) (growable : Bool) : Heap :=
  { new {} with
    cells := (new {}).cells.push (.new (.host ⟨⟨0⟩, growable, .new none⟩))
    collections := #[collection] }

theorem withView_steady (collection : Collection) (growable : Bool) :
    (withView collection growable).Steady := by
  rintro ⟨_ | _ | _ | _ | _ | index⟩ cell found _ <;> cases found <;> rfl

/-- A map from one string. -/
def flags (name : String) : Collection :=
  @Collection.map .string (.plain .boolean) (.insert .empty name true)

end Heap

end ObjectModel
