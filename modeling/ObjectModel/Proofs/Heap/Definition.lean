import ObjectModel.Proofs.Heap.Amendment
import ObjectModel.Proofs.Host.Definition

/-!
# Definitions that are reported as done

Whoever is told that a property of a host collection has been defined finds it as it was requested,
unless the request is one of those that are overlooked.
-/

namespace ObjectModel.Heap

variable {heap after : Heap} {id : ObjectId} {key : Key} {request : Request} {engine : Engine}

theorem on_describe_of_grasp {cell : ObjectCell Representation} {object : Object}
    (grasped : heap.grasp id = .ok (cell, object)) (engine : Engine) (key : Key) :
    ((Command.describe id key).execute engine).on heap =
      some (.ok ((object.getOwn key).map Slot.descriptor), heap) := by
  obtain ⟨found, viewed, examined⟩ := of_grasp grasped
  have inspected := (ready_of_view found viewed).on_inspect engine
  rw [examined] at inspected
  exact Action.on_bind_ok inspected _

/-- A definition that is reported as done is one of an object that has accepted it. -/
theorem on_judge_of_on_define {strict : Bool}
    (ran : ((Command.define id key request strict).execute engine).on heap =
      some (.ok true, after)) :
    (judge engine id (·.define key request)).on heap = some (.ok .accepted, after) := by
  rw [Command.execute_define] at ran
  obtain ⟨_, mid, validating, defining⟩ :=
    Action.exists_of_on_bind_ok (on_eq_accepted_of_on_report ran)
  rw [Action.on_ofExcept] at validating
  obtain ⟨_, rfl⟩ := Prod.mk.inj (Option.some.inj validating)
  exact defining

/-- A definition that is reported as done leaves an object that is described as it is.  If the key
is that of an entry, an item or the length of a host collection, the object shows the property as it
was requested, but for the requests that are overlooked. -/
theorem accepted_definitions_shown {strict : Bool}
    (ran : ((Command.define id key request strict).execute engine).on heap =
      some (.ok true, after)) :
    ∃ object, after.object? id = some object ∧
      ((Command.describe id key).execute engine).on after =
        some (.ok ((object.getOwn key).map Slot.descriptor), after) ∧
      (object.collects key = true →
        (object.Shows key request ↔ object.overlooks key request = false)) := by
  obtain ⟨object, next, stored, defined, grasped⟩ :=
    exists_grasp_of_on_judge (retains_mutate (.define key request)) (on_judge_of_on_define ran)
  refine ⟨next, object?_of_examine (of_grasp grasped).2.2, on_describe_of_grasp grasped engine key,
    fun collects => ?_⟩
  rw [Object.collects_of_define defined] at collects
  exact Object.shows_iff_of_define collects defined

/-- An entry shows the value that is defined for it. -/
theorem accepted_definitions_shown_flags :
    let request : Request := { value := some (.boolean false), writable := some true }
    ∃ after object,
      ((Command.define ⟨4⟩ .name request true).execute (.within 1)).on
          (withView (flags "name") true) = some (.ok true, after) ∧
        after.object? ⟨4⟩ = some object ∧ object.Shows .name request := by
  intro request
  obtain ⟨after, object, ran, seen, collects, noted⟩ : ∃ after object,
      ((Command.define ⟨4⟩ .name request true).execute (.within 1)).on
          (withView (flags "name") true) = some (.ok true, after) ∧
        after.object? ⟨4⟩ = some object ∧ object.collects .name = true ∧
        object.overlooks .name request = false := ⟨_, _, rfl, rfl, rfl, rfl⟩
  obtain ⟨other, seenOther, _, shows⟩ := accepted_definitions_shown ran
  cases seen.symm.trans seenOther
  exact ⟨after, object, ran, seen, (shows collects).mpr noted⟩

def answers : Collection := @Collection.sequence (.plain .boolean) [true]

/-- It is reported as done that an entry is not listed, that there is an item beyond the last one,
and that a length is read-only; but the entry is listed, there is no item and the length is
writable. -/
theorem accepted_definitions_hidden :
    (∃ after, ((Command.define ⟨4⟩ .name { enumerable := some false } true).execute
            (.within 1)).on (withView (flags "name") true) = some (.ok true, after) ∧
        ((Command.describe ⟨4⟩ .name).execute (.within 1)).on after =
          some (.ok (some (.data (.boolean true) ⟨true, true, true⟩)), after)) ∧
      (∃ after, ((Command.define ⟨4⟩ (.index 3) { writable := some true } true).execute
            (.within 1)).on (withView answers true) = some (.ok true, after) ∧
        ((Command.describe ⟨4⟩ (.index 3)).execute (.within 1)).on after =
          some (.ok none, after)) ∧
      ∃ after, ((Command.define ⟨4⟩ .length { writable := some false } true).execute
            (.within 1)).on (withView answers true) = some (.ok true, after) ∧
        ((Command.describe ⟨4⟩ .length).execute (.within 1)).on after =
          some (.ok (some (.data (.number (.ofNat 1)) ⟨true, false, false⟩)), after) :=
  ⟨⟨_, rfl, rfl⟩, ⟨_, rfl, rfl⟩, ⟨_, rfl, rfl⟩⟩

end ObjectModel.Heap
