import ObjectModel.Proofs.Array.Atomicity
import ObjectModel.Proofs.Heap.Eager
import ObjectModel.Proofs.Heap.Store
import ObjectModel.Proofs.Heap.Strictness
import ObjectModel.Proofs.Object.Mutation

/-!
# Failed mutations

A mutation that is refused or fails leaves the whole heap as it was, the collections behind host
views included.  The one exception is a length that an element of an array does not allow.
-/

namespace ObjectModel

namespace Object

variable {object : Object} {mutation : OwnMutation} {index : Nat}

/-- Whether a mutation asks an array for a length that the element at an index does not allow. -/
inductive Stopped (mutation : OwnMutation) (index : Nat) : Object → Prop
  | array {array : ArrayObject} {target : Nat}
      (requested : mutation.requestedLength? = some target)
      (writable : array.lengthWritable = true) (blocked : array.Blocked target index) :
      Stopped mutation index (.array array)

/-- Unless it is stopped by an element, a mutation of any object happens entirely or not at all. -/
theorem allOrNothing_mutate (wellFormed : object.WellFormed)
    (free : ∀ index, ¬object.Stopped mutation index) :
    AllOrNothing Object.prototype object (object.mutate mutation) := by
  cases object with
  | ordinary inner =>
    rw [mutate_ordinary]
    exact (inner.allOrNothing_mutate mutation).within Object.ordinary fun _ => rfl
  | function base =>
    rw [mutate_function]
    exact (base.allOrNothing_mutate mutation).within Object.function fun _ => rfl
  | string inner =>
    rw [mutate_string]
    exact (inner.allOrNothing_mutate mutation).within Object.string fun _ => rfl
  | map view =>
    rw [mutate_map]
    exact (view.allOrNothing_mutate mutation).within Object.map fun _ => rfl
  | sequence view =>
    rw [mutate_sequence]
    exact (view.allOrNothing_mutate mutation).within Object.sequence fun _ => rfl
  | array inner =>
    rw [mutate_array]
    refine (ArrayObject.allOrNothing_mutate wellFormed ?_).within Object.array fun _ => rfl
    intro target index requested writable blocked
    exact free index (.array requested writable blocked)

theorem Stopped.mutate (stopped : object.Stopped mutation index)
    (wellFormed : object.WellFormed) :
    ∃ array next, object = .array array ∧
      object.mutate mutation = .ok (.refused (.redefinition .length), .array next) ∧
      array.CutAbove next index mutation.freezes := by
  cases stopped with
  | @array array target requested writable blocked =>
    obtain ⟨next, mutated, cut⟩ := blocked.mutate wellFormed writable requested
    refine ⟨array, next, rfl, ?_, cut⟩
    rw [mutate_array, mutated]
    rfl

end Object

namespace Heap

variable {heap : Heap} {id : ObjectId} {cell : ObjectCell Representation} {object : Object}

theorem ready_of_view (found : heap.cell? id = some cell)
    (viewed : heap.view? cell.value = some object) : heap.Ready id := by
  intro own foundOwn
  rw [found] at foundOwn
  cases foundOwn
  cases lazy : cell.value with
  | pending factory =>
    rw [lazy] at viewed
    cases viewed
  | spent =>
    rw [lazy] at viewed
    cases viewed
  | _ => rfl

section Failing

variable {engine : Engine} {mutation : OwnMutation} {strict : Bool} {outcome : Except Fault Bool}
  {after : Heap}

/-- An own mutation of an object stores what it makes of the object, unless somebody holds it. -/
theorem on_mutate (found : heap.cell? id = some cell)
    (viewed : heap.view? cell.value = some object) (engine : Engine) (mutation : OwnMutation)
    (strict : Bool) :
    ((Command.mutate id mutation strict).execute engine).on heap =
      some (match cell.borrow with
        | .shared _ => (.error (.internal .alreadyBorrowed), heap)
        | .exclusive => (.error (.internal .beingModified), heap)
        | .free =>
          match object.mutate mutation with
          | .error fault => (.error fault, heap)
          | .ok (verdict, next) => (verdict.report strict, heap.store id cell next)) := by
  rw [Command.execute_mutate, on_report, (ready_of_view found viewed).on_judge,
    grasp_eq found viewed]
  cases cell.borrow with
  | shared readers => rfl
  | exclusive => rfl
  | free =>
    simp only [Option.map_some]
    cases object.mutate mutation <;> rfl

theorem store_array (heap : Heap) (id : ObjectId) (cell : ObjectCell Representation)
    (next : ArrayObject) :
    heap.store id cell (.array next) = heap.setCell id { cell with value := .array next } := by
  unfold store
  cases cell.value <;> rfl

theorem strict_of_report {verdict : Verdict} {fault : Fault}
    (raised : verdict.report strict = .error fault) : strict = true := by
  cases verdict with
  | accepted => cases raised
  | refused why =>
    cases strict with
    | true => rfl
    | false => cases raised

theorem failed_of_allOrNothing (found : heap.cell? id = some cell)
    (viewed : heap.view? cell.value = some object)
    (whole : cell.borrow = .free → AllOrNothing Object.prototype object (object.mutate mutation))
    (ran : ((Command.mutate id mutation strict).execute engine).on heap = some (outcome, after))
    (failed : outcome ≠ .ok true) :
    after = heap ∧ ∀ why, outcome = .error (.attributeViolation why) → strict = true := by
  rw [on_mutate found viewed] at ran
  cases borrow : cell.borrow with
  | shared readers =>
    rw [borrow] at ran
    cases ran
    exact ⟨rfl, nofun⟩
  | exclusive =>
    rw [borrow] at ran
    cases ran
    exact ⟨rfl, nofun⟩
  | free =>
    rw [borrow] at ran
    have decided := whole borrow
    generalize object.mutate mutation = mutated at ran decided
    cases decided with
    | accepted linked =>
      cases ran
      exact absurd rfl failed
    | refused why =>
      cases ran
      exact ⟨store_self found viewed, fun _ => strict_of_report⟩
    | faulty unrefused =>
      cases ran
      refine ⟨rfl, ?_⟩
      intro why same
      cases same
      cases unrefused

/-- A mutation that is not accepted leaves the heap as it was, unless an element of an array stops a
shrink.  Then the length is one above the element, exactly the elements from there on are gone, and
a definition that was to make the length read-only has done so.  Only those who asked for it hear of
a refusal as a fault. -/
theorem failed_mutation_keeps (found : heap.cell? id = some cell)
    (viewed : heap.view? cell.value = some object) (wellFormed : object.WellFormed)
    (ran : ((Command.mutate id mutation strict).execute engine).on heap = some (outcome, after))
    (failed : outcome ≠ .ok true) :
    ((cell.borrow = .free → ∀ index, ¬object.Stopped mutation index) → after = heap) ∧
      (cell.borrow = .free → ∀ index, object.Stopped mutation index →
        outcome = reject strict (.redefinition .length) ∧
          ∃ array next, object = .array array ∧
            after = heap.setCell id { cell with value := .array next } ∧
            array.CutAbove next index mutation.freezes) ∧
      ∀ why, outcome = .error (.attributeViolation why) → strict = true := by
  have entirely : (cell.borrow = .free → ∀ index, ¬object.Stopped mutation index) →
      after = heap ∧ ∀ why, outcome = .error (.attributeViolation why) → strict = true := by
    intro unstopped
    apply failed_of_allOrNothing found viewed _ ran failed
    intro free
    exact Object.allOrNothing_mutate wellFormed (unstopped free)
  have partly : cell.borrow = .free → ∀ index, object.Stopped mutation index →
      outcome = reject strict (.redefinition .length) ∧
        ∃ array next, object = .array array ∧
          after = heap.setCell id { cell with value := .array next } ∧
          array.CutAbove next index mutation.freezes := by
    intro free index stopped
    obtain ⟨array, next, isArray, mutated, cut⟩ := stopped.mutate wellFormed
    rw [on_mutate found viewed, free, mutated] at ran
    cases ran
    exact ⟨rfl, array, next, isArray, heap.store_array id cell next, cut⟩
  refine ⟨fun unstopped => (entirely unstopped).1, partly, ?_⟩
  intro why raised
  by_cases stopped : cell.borrow = .free ∧ ∃ index, object.Stopped mutation index
  · obtain ⟨free, index, stopped⟩ := stopped
    have reported : outcome = (Verdict.refused (.redefinition .length)).report strict :=
      (partly free index stopped).1
    rw [raised] at reported
    exact strict_of_report reported.symm
  · refine (entirely ?_).2 why raised
    intro free index stops
    exact stopped ⟨free, index, stops⟩

end Failing

/-- An array of two elements, the first of which must stay. -/
def pinned : ArrayObject :=
  ((ArrayObject.new none {}).after (.own (.define (.index 0) { value := some .null }) true)).after
    (.own (.add (.index 1) .null) true)

def pinnedHeap : Heap where
  cells := #[.new (.array pinned)]
  policy := {}
  collections := #[]
  names := []
  log := []

def emptied : OwnMutation :=
  .define .length { value := some (.number .zero), writable := some false }

theorem requestedLength?_emptied : emptied.requestedLength? = some 0 := by
  have whole : Number.zero.toInt? = some 0 := by decide +kernel
  have length : toArrayLength (.number .zero) = .ok 0 := by
    simp only [toArrayLength, Value.toNumber, whole]
    rfl
  have asked : emptied.lengthValue? = some (.number .zero) := rfl
  rw [OwnMutation.requestedLength?, asked, Option.bind_some, length]
  rfl

theorem pinned_blocked : pinned.Blocked 0 0 where
  above := Nat.le_refl 0
  fixed := ⟨_, rfl, rfl⟩
  highest := by
    rintro (_ | _ | other) slot above found
    · cases above
    · cases found
      rfl
    · cases found

theorem failed_mutation_keeps_pinnedHeap :
    pinnedHeap.cell? ⟨0⟩ = some (.new (.array pinned)) ∧
      pinnedHeap.view? (.array pinned) = some (.array pinned) ∧ pinned.WellFormed ∧
      ∃ next,
        ((Command.mutate ⟨0⟩ emptied false).execute (.within 0)).on pinnedHeap =
          some (.ok false, pinnedHeap.setCell ⟨0⟩ (.new (.array next))) ∧
        pinned.CutAbove next 0 true := by
  have found : pinnedHeap.cell? ⟨0⟩ = some (.new (.array pinned)) := rfl
  have viewed : pinnedHeap.view? (.array pinned) = some (.array pinned) := rfl
  have wellFormed : pinned.WellFormed := ((ArrayObject.WellFormed.new none {}).after _).after _
  have stopped : (Object.array pinned).Stopped emptied 0 :=
    .array requestedLength?_emptied rfl pinned_blocked
  obtain ⟨_, shrunk, _, mutated, _⟩ := stopped.mutate wellFormed
  have ran : ((Command.mutate ⟨0⟩ emptied false).execute (.within 0)).on pinnedHeap =
      some (.ok false, pinnedHeap.store ⟨0⟩ (.new (.array pinned)) (.array shrunk)) := by
    rw [on_mutate found viewed, mutated]
    rfl
  obtain ⟨_, array, next, isArray, after, cut⟩ :=
    (failed_mutation_keeps found viewed wellFormed ran nofun).2.1 rfl 0 stopped
  cases isArray
  rw [after] at ran
  exact ⟨found, viewed, wellFormed, next, ran, cut⟩

end Heap

end ObjectModel
