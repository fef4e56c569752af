import ObjectModel.Proofs.Array.Length
import ObjectModel.Proofs.Heap.Atomicity

/-!
# The length of an array in a heap

The length of an array may be assigned directly, written and defined.  All that is done through any
of these commands is the assignment, and what is no length is a fault that leaves the heap as it is.
-/

namespace ObjectModel

/-- The commands that write a value to the property `length`. -/
def Command.lengthWrites (id : ObjectId) (value : Value) (strict : Bool) : List (Command .flag) :=
  [.put id .length value strict, .mutate id (.write .length value) strict]

/-- The commands that define the value of the property `length`. -/
def Command.lengthDefinitions (id : ObjectId) (value : Value) (strict : Bool) :
    List (Command .flag) :=
  [.define id .length { value := some value } strict,
    .mutate id (.define .length { value := some value }) strict]

namespace Heap

variable {heap : Heap} {id : ObjectId} {array : ArrayObject}

section Assigning

variable (found : heap.cell? id = some (.new (.array array))) (engine : Engine) (strict : Bool)

include found

theorem on_resize (length : Nat) :
    ((Command.resize id length strict).execute engine).on heap =
      some (((array.setLength length).1.report strict).map some,
        heap.setCell id (.new (.array (array.setLength length).2))) := by
  have viewed : heap.view? (.array array) = some (.array array) := rfl
  have amended : (judge engine id (Object.resize length)).on heap =
      some (.ok (some (array.setLength length).1),
        heap.setCell id (.new (.array (array.setLength length).2))) := by
    rw [(ready_of_view found viewed).on_judge, grasp_eq found viewed]
    rfl
  have reported : ((Command.resize id length strict).execute engine).on heap =
      (some <$> Action.ofExcept ((array.setLength length).1.report strict) :
        Action (Option Bool)).on
          (heap.setCell id (.new (.array (array.setLength length).2))) := by
    rw [Command.execute_resize]
    exact Action.on_bind_ok amended _
  rw [reported]
  cases (array.setLength length).1.report strict <;> rfl

theorem on_mutate_array (mutation : OwnMutation) :
    ((Command.mutate id mutation strict).execute engine).on heap =
      some (match array.mutate mutation with
        | .error fault => (.error fault, heap)
        | .ok (verdict, next) =>
          (verdict.report strict, heap.setCell id (.new (.array next)))) := by
  have viewed : heap.view? (.array array) = some (.array array) := rfl
  refine (on_mutate found viewed engine mutation strict).trans ?_
  rw [Object.mutate_array]
  cases array.mutate mutation <;> rfl

theorem on_put_length (value : Value) :
    ((Command.put id .length value strict).execute engine).on heap =
      ((Command.mutate id (.write .length value) strict).execute engine).on heap := by
  have viewed : heap.view? (.array array) = some (.array array) := rfl
  have inspected := (ready_of_view found viewed).on_inspect engine
  rw [(of_grasp (grasp_eq found viewed)).2.2] at inspected
  have writes : (judgePut engine id .length value).on heap =
      (judge engine id (·.mutate (.write .length value))).on heap :=
    Action.on_bind_ok inspected _
  rw [Command.execute_put, Command.execute_mutate, on_report, on_report, writes]

theorem on_lengthWrites {value : Value} {command : Command .flag}
    (writes : command ∈ Command.lengthWrites id value strict) :
    (command.execute engine).on heap =
      some (match toArrayLength value with
        | .error fault => (.error fault, heap)
        | .ok length => ((array.setLength length).1.report strict,
            heap.setCell id (.new (.array (array.setLength length).2)))) := by
  have written : array.mutate (.write .length value) = (toArrayLength value).map array.setLength :=
    array.write_length value
  have ran := on_mutate_array found engine strict (.write .length value)
  rw [written] at ran
  have same : (command.execute engine).on heap =
      ((Command.mutate id (.write .length value) strict).execute engine).on heap := by
    rcases List.mem_cons.mp writes with rfl | direct
    · exact on_put_length found engine strict value
    · rw [List.mem_singleton.mp direct]
  rw [same, ran]
  cases toArrayLength value <;> rfl

theorem on_lengthDefinitions {value : Value} {command : Command .flag}
    (defines : command ∈ Command.lengthDefinitions id value strict) :
    (command.execute engine).on heap =
      some (match toArrayLength value with
        | .error fault => (.error fault, heap)
        | .ok length =>
          ((array.setLength length).1.ofRedefinition.report strict,
            heap.setCell id (.new (.array (array.setLength length).2)))) := by
  have defined := array.define_length value
  have ran := on_mutate_array found engine strict (.define .length { value := some value })
  have same : (command.execute engine).on heap =
      ((Command.mutate id (.define .length { value := some value }) strict).execute engine).on
        heap := by
    rcases List.mem_cons.mp defines with rfl | direct
    · rfl
    · rw [List.mem_singleton.mp direct]
  rw [same, ran, ArrayObject.mutate, defined]
  cases toArrayLength value <;> rfl

end Assigning

/-- However a length is assigned to a reachable array that nobody holds, the array answers and
becomes what the assignment comes to, and nothing else in the heap changes.  Nothing stops an array
from growing.  To write the property `length` is reported like the assignment, and to define its
value is accepted if and only if the assignment is.  A value that is no length is out of range. -/
theorem length_assignments {heap : Heap} {id : ObjectId} {array : ArrayObject}
    (found : heap.cell? id = some (.new (.array array))) (reachable : array.Reachable)
    (engine : Engine) (strict : Bool) :
    (∀ target ≤ maxArrayLength, ∃ verdict next, array.AssignsLength target verdict next ∧
      (array.length ≤ target → ∀ index, ¬array.Blocked target index) ∧
      ((Command.resize id target strict).execute engine).on heap =
        some ((verdict.report strict).map some, heap.setCell id (.new (.array next))) ∧
      ∀ value, toArrayLength value = .ok target →
        (∀ command ∈ Command.lengthWrites id value strict, (command.execute engine).on heap =
          some (verdict.report strict, heap.setCell id (.new (.array next)))) ∧
        ∃ defined : Verdict, (defined = .accepted ↔ verdict = .accepted) ∧
          ∀ command ∈ Command.lengthDefinitions id value strict, (command.execute engine).on heap =
            some (defined.report strict, heap.setCell id (.new (.array next)))) ∧
    ∀ value fault, toArrayLength value = .error fault → fault = .range .arrayLength ∧
      ∀ command ∈ Command.lengthWrites id value strict ++ Command.lengthDefinitions id value strict,
        (command.execute engine).on heap = some (.error fault, heap) := by
  have wellFormed := reachable.wellFormed
  constructor
  · intro target possible
    refine ⟨_, _, wellFormed.assignsLength possible, wellFormed.not_blocked_of_length_le,
      on_resize found engine strict target, ?_⟩
    intro value converted
    constructor
    · intro command writes
      rw [on_lengthWrites found engine strict writes, converted]
    · refine ⟨_, Verdict.ofRedefinition_eq_accepted_iff, fun command defines => ?_⟩
      rw [on_lengthDefinitions found engine strict defines, converted]
  · intro value fault failed
    refine ⟨eq_of_toArrayLength_eq_error failed, fun command member => ?_⟩
    rcases List.mem_append.mp member with writes | defines
    · rw [on_lengthWrites found engine strict writes, failed]
    · rw [on_lengthDefinitions found engine strict defines, failed]

/-- An array of three elements, the middle one of which must stay. -/
def moored : ArrayObject :=
  (((ArrayObject.new none {}).after (.own (.add (.index 0) .null) true)).after
    (.own (.define (.index 1) { value := some .null }) true)).after
      (.own (.add (.index 2) .null) true)

def mooredHeap : Heap where
  cells := #[.new (.array moored)]
  policy := {}
  collections := #[]
  names := []
  log := []

/-- To empty the array is refused and leaves two elements, the one below the one that must stay
included; `undefined` is no length. -/
theorem length_assignments_moored :
    mooredHeap.cell? ⟨0⟩ = some (.new (.array moored)) ∧ moored.Reachable ∧
      0 ≤ maxArrayLength ∧ toArrayLength (.number .zero) = .ok 0 ∧
      toArrayLength .undefined = .error (.range .arrayLength) ∧
      (∃ next, moored.Resized next 2 ∧ next.element? 0 = some (.bare .null) ∧
        ((Command.put ⟨0⟩ .length (.number .zero) false).execute (.within 0)).on mooredHeap =
          some (.ok false, mooredHeap.setCell ⟨0⟩ (.new (.array next)))) ∧
      ((Command.put ⟨0⟩ .length .undefined false).execute (.within 0)).on mooredHeap =
        some (.error (.range .arrayLength), mooredHeap) := by
  have found : mooredHeap.cell? ⟨0⟩ = some (.new (.array moored)) := rfl
  have reachable : moored.Reachable := .mutated (.mutated (.mutated (.new none {}) _) _) _
  have zero : toArrayLength (.number .zero) = .ok 0 := by
    have whole : Number.zero.toInt? = some 0 := by decide +kernel
    simp only [toArrayLength, Value.toNumber, whole]
    rfl
  have unsuited : toArrayLength .undefined = .error (.range .arrayLength) := rfl
  obtain ⟨assigned, rejected⟩ := length_assignments found reachable (.within 0) false
  obtain ⟨verdict, next, assigns, _, _, written⟩ := assigned 0 (Nat.zero_le _)
  have putZero := (written _ zero).1 (.put ⟨0⟩ .length (.number .zero) false) List.mem_cons_self
  have putUndefined := (rejected _ _ unsuited).2 (.put ⟨0⟩ .length .undefined false)
    List.mem_cons_self
  have search {index : Nat} : moored.blocker? 0 = some index ↔ moored.Blocked 0 index :=
    reachable.wellFormed.blocker?_eq_some_iff
  have blocker : moored.blocker? 0 = some 1 := rfl
  refine ⟨found, reachable, Nat.zero_le _, zero, unsuited, ?_, putUndefined⟩
  cases assigns with
  | kept same => cases same
  | readOnly _ readOnly => cases readOnly
  | resized _ _ unblocked => exact absurd (search.mp blocker) (unblocked 1)
  | stopped _ _ blocked resized =>
    cases blocker.symm.trans (search.mpr blocked)
    exact ⟨next, resized, resized.elements 0, putZero⟩

end Heap

end ObjectModel
