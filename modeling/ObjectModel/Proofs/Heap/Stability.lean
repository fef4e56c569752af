import ObjectModel.Proofs.Heap.Canonical
import ObjectModel.Proofs.Heap.Definition
import ObjectModel.Proofs.Heap.Frame
import ObjectModel.Proofs.Object.Stability

/-!
# Definitions and what is read after them

A definition on a native object that is reported as done is read back: the property has all that was
requested and the rest as before.  To define it once more, or to define a property as it is
described, is reported as done and changes nothing in the heap, whether or not the object is
extensible and the property configurable.
-/

namespace ObjectModel.Heap

variable {heap after : Heap} {id : ObjectId} {object : Object} {key : Key} {request : Request}
  {engine : Engine}

/-- Whether a property is described in a certain way, or not at all. -/
def Describes (heap : Heap) (engine : Engine) (id : ObjectId) (key : Key)
    (found : Option Descriptor) : Prop :=
  ((Command.describe id key).execute engine).on heap = some (.ok found, heap)

/-- Whether a definition is reported as done and changes nothing. -/
def Confirms (heap : Heap) (engine : Engine) (id : ObjectId) (key : Key) (request : Request) :
    Prop :=
  ∀ strict, ((Command.define id key request strict).execute engine).on heap = some (.ok true, heap)

/-- What a definition that is reported as done leaves: the property as it was requested, the rest of
it as before unless its kind has changed, and nothing to be done if it is requested again. -/
structure Fulfills (before after : Heap) (engine : Engine) (id : ObjectId) (key : Key)
    (request : Request) (shown : Descriptor) : Prop where
  describes : after.Describes engine id key (some shown)
  reported : request.ReportedBy shown
  rest : ∀ old, before.Describes engine id key (some old) →
    shown.isAccessor = old.isAccessor → request.LeavesRest old shown
  confirms : after.Confirms engine id key request

section Defining

variable {cell : ObjectCell Representation} (grasped : heap.grasp id = .ok (cell, object))

include grasped

theorem describes_iff {found : Option Descriptor} :
    heap.Describes engine id key found ↔ (object.getOwn key).map Slot.descriptor = found := by
  unfold Describes
  rw [on_describe_of_grasp grasped]
  simp

variable (canonical : object.Canonical) (native : object.kind ≠ .host)
  (notLength : object.kind = .array → key.isLength = false)

include canonical native notLength

theorem confirms_of_reportedBy {slot : Slot} (found : object.getOwn key = some slot)
    (reported : request.ReportedBy slot.descriptor) : heap.Confirms engine id key request := by
  intro strict
  obtain ⟨foundCell, viewed, _⟩ := of_grasp grasped
  have unmixed := Request.isMixed_eq_false.mpr
    (reported.unmixed (canonical.getOwn native found).proper)
  have validated : request.validate = .ok () := by simp [Request.validate, unmixed]
  have unchanged := object.define_of_reportedBy canonical native notLength found reported
  have defined : (judgeDefine engine id key request).on heap = some (.ok .accepted, heap) := by
    unfold judgeDefine
    rw [validated]
    refine (Action.on_bind_ok (Action.on_ofExcept ..) _).trans ?_
    rw [(ready_of_view foundCell viewed).on_judge, grasped]
    simp only [unchanged, store_self foundCell viewed]
  rw [Command.execute_define, on_report, defined]
  rfl

end Defining

theorem exists_fulfills_of_on_define {strict : Bool} (seen : heap.object? id = some object)
    (canonical : object.Canonical) (native : object.kind ≠ .host)
    (notLength : object.kind = .array → key.isLength = false)
    (ran : ((Command.define id key request strict).execute engine).on heap =
      some (.ok true, after)) : ∃ shown, heap.Fulfills after engine id key request shown := by
  obtain ⟨cell, next, stored, grasped, mutated, graspedAfter⟩ := exists_grasps_of_on_judge seen
    (retains_mutate (.define key request)) (on_judge_of_on_define ran)
  have kind := Object.kind_mutate mutated
  obtain ⟨slot, found, merges⟩ :=
    object.exists_mergesInto_of_define canonical native notLength mutated
  refine ⟨slot.descriptor, ?_, merges.reportedBy, ?_, ?_⟩
  · rw [describes_iff graspedAfter, found]
    rfl
  · intro old describes sameKind
    rw [describes_iff grasped] at describes
    rw [describes] at merges
    exact merges.leavesRest sameKind
  · exact confirms_of_reportedBy graspedAfter (canonical.mutate mutated) (kind ▸ native)
      (kind ▸ notLength) found merges.reportedBy

/-- Whether definitions on the native objects of a heap are read back and repeated without effect.
The length of an array is left out, as its definition may cut the array. -/
structure DefinesStably (heap : Heap) : Prop where
  fulfills : ∀ {id object key}, heap.native? id = some object →
    (object.kind = .array → key.isLength = false) → ∀ {engine request strict after},
      ((Command.define id key request strict).execute engine).on heap = some (.ok true, after) →
        ∃ shown, heap.Fulfills after engine id key request shown
  restates : ∀ {id object key}, heap.native? id = some object →
    (object.kind = .array → key.isLength = false) → heap.unheld id = true → ∀ {engine shown},
      heap.Describes engine id key (some shown) →
        heap.Confirms engine id key (.ofDescriptor shown)

theorem exists_grasp_of_unheld (native : heap.native? id = some object)
    (unheld : heap.unheld id = true) : ∃ cell, heap.grasp id = .ok (cell, object) := by
  obtain ⟨cell, found, _⟩ := exists_cell native
  have free : cell.borrow = .free := by simpa [Heap.unheld, found] using unheld
  exact ⟨cell, by rw [grasp_eq found (view?_of_native native found), free]⟩

theorem Upholds.definesStably (upholds : heap.Upholds Object.canonicity) :
    heap.DefinesStably where
  fulfills native notLength _ _ _ _ ran := by
    have seen := object?_of_native native
    exact exists_fulfills_of_on_define seen (upholds.holds seen) (kind_ne_host native) notLength ran
  restates native notLength unheld engine shown describes := by
    have canonical := upholds.holds (object?_of_native native)
    obtain ⟨cell, grasped⟩ := exists_grasp_of_unheld native unheld
    obtain ⟨slot, isSlot, rfl⟩ := Option.map_eq_some_iff.mp ((describes_iff grasped).mp describes)
    have proper := (canonical.getOwn (kind_ne_host native) isSlot).proper
    exact confirms_of_reportedBy grasped canonical (kind_ne_host native) notLength isSlot
      (Request.reportedBy_ofDescriptor proper)

/-- In new heaps, and in all heaps that runs of code lead to that builds canonical objects, as all
objects are that the constructors build, what has been defined is read back, and to define it once
more or as it is described changes nothing. -/
theorem definitions_stable :
    (∀ policy, (new policy).Upholds Object.canonicity) ∧
      (∀ object : Object, object.Built → Object.canonicity.holds object) ∧
      ∀ {heap : Heap}, heap.Upholds Object.canonicity →
        heap.DefinesStably ∧
        ∀ {depth goal} {code : Code goal} {outcome after},
          code.Obeys (.upholding Object.canonicity) →
            (code.run depth).on heap = some (outcome, after) →
              after.Upholds Object.canonicity ∧ after.DefinesStably := by
  refine ⟨upholds_canonicity_new, fun _ built => built.canonical,
    fun upholds => ⟨upholds.definesStably, fun obeys ran => ?_⟩⟩
  have upholdsAfter := upholds.run obeys ran
  exact ⟨upholdsAfter, upholdsAfter.definesStably⟩

/-- Code that makes a string object, and an array that has one element and gets no other. -/
def sealing : Code (.reply .flag) :=
  .ask (.allocate (.string (.new (.ofString "ab") none))) fun _ =>
    .ask (.define arrayPrototype (.index 0)
        { value := some (.number .nan), writable := some true } true) fun _ =>
      .ask (.preventExtensions arrayPrototype) .give

theorem sealing_obeys : sealing.Obeys (.upholding Object.canonicity) := by
  have canonical (heap : Heap) (object : Object)
      (viewed : heap.view? (.string (.new (.ofString "ab") none)) = some object) :
      Object.canonicity.holds object := by
    cases viewed
    exact (Object.Built.string _ none).canonical
  refine ⟨⟨trivial, canonical⟩, fun allocated => ?_⟩
  cases allocated with
  | error fault => trivial
  | ok id =>
    refine ⟨trivial, fun defined => ?_⟩
    cases defined with
    | error fault => trivial
    | ok done => exact ⟨trivial, fun closed => by cases closed <;> trivial⟩

/-- The element that is made read-only is the same NaN as before, and may be made so again.  A unit
of the text may be defined as it is. -/
theorem definitions_stable_sealing :
    let closing : Request := { value := some (.number .nan), writable := some false }
    let unit := Descriptor.data (.text (.ofString "b")) ⟨false, true, false⟩
    ∃ heap after, (sealing.run 1).on (new {}) = some (.ok true, heap) ∧
      ((Command.define arrayPrototype (.index 0) closing true).execute (.within 1)).on heap =
        some (.ok true, after) ∧
      after.Describes (.within 1) arrayPrototype (.index 0)
        (some (.data (.number .nan) .locked)) ∧
      after.Confirms (.within 1) arrayPrototype (.index 0) closing ∧
      heap.Describes (.within 1) ⟨4⟩ (.index 1) (some unit) ∧
      heap.Confirms (.within 1) ⟨4⟩ (.index 1) (.ofDescriptor unit) := by
  intro closing unit
  obtain ⟨heap, array, string, after, ran, native, nativeString, unheld, defined, shownElement,
      shownUnit⟩ :
      ∃ heap array string after, (sealing.run 1).on (new {}) = some (.ok true, heap) ∧
        heap.native? arrayPrototype = some (.array array) ∧
        heap.native? ⟨4⟩ = some (.string string) ∧ heap.unheld ⟨4⟩ = true ∧
        ((Command.define arrayPrototype (.index 0) closing true).execute (.within 1)).on heap =
          some (.ok true, after) ∧
        after.Describes (.within 1) arrayPrototype (.index 0)
          (some (.data (.number .nan) .locked)) ∧
        heap.Describes (.within 1) ⟨4⟩ (.index 1) (some unit) :=
    by exact ⟨_, _, _, _, rfl, rfl, rfl, rfl, rfl, rfl, rfl⟩
  obtain ⟨upholdsNew, _, stable⟩ := definitions_stable
  obtain ⟨_, definesStably⟩ := (stable (upholdsNew {})).2 sealing_obeys ran
  obtain ⟨shown, fulfills⟩ := definesStably.fulfills native (fun _ => rfl) defined
  have confirms := definesStably.restates nativeString nofun unheld shownUnit
  exact ⟨heap, after, ran, defined, shownElement, fulfills.confirms, shownUnit, confirms⟩

end ObjectModel.Heap
