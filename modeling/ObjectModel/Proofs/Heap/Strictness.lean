import ObjectModel.Proofs.Verdict.Heap

/-!
# Strict and lenient callers

A caller says whether a refusal is to be a fault or `false`.  That is all the difference: whatever
the heap, a strict run and a lenient run of the same command do the same, native code and partial
changes included, and only the report of a refusal tells them apart.
-/

namespace ObjectModel

/-- What is asked of an object that may refuse. -/
inductive Demand
  | put (id : ObjectId) (key : Key) (value : Value)
  | define (id : ObjectId) (key : Key) (request : Request)
  | delete (id : ObjectId) (key : Key)
  | setPrototype (id : ObjectId) (prototype : Option ObjectId)
  | mutate (id : ObjectId) (mutation : OwnMutation)

namespace Demand

def command (strict : Bool) : Demand → Command .flag
  | .put id key value => .put id key value strict
  | .define id key request => .define id key request strict
  | .delete id key => .delete id key strict
  | .setPrototype id prototype => .setPrototype id prototype strict
  | .mutate id mutation => .mutate id mutation strict

/-- The verdict on what is asked, whoever asks. -/
def verdict (engine : Engine) : Demand → Action Verdict
  | .put id key value => Heap.judgePut engine id key value
  | .define id key request => Heap.judgeDefine engine id key request
  | .delete id key => Heap.judgeDelete engine id key
  | .setPrototype id prototype => Heap.judgePrototype engine id prototype
  | .mutate id mutation => Heap.judge engine id (·.mutate mutation)

theorem execute_command (demand : Demand) (strict : Bool) (engine : Engine) :
    (demand.command strict).execute engine = (demand.verdict engine).report strict := by
  cases demand with
  | put id key value => exact Command.execute_put key value
  | define id key request => exact Command.execute_define key request
  | delete id key => exact Command.execute_delete key
  | setPrototype id prototype => exact Command.execute_setPrototype prototype
  | mutate id mutation => exact Command.execute_mutate mutation

end Demand

/-- What lenient and strict callers hear of the same outcome. -/
inductive Verdict.Heard : Except Fault Bool → Except Fault Bool → Prop
  | accepted : Heard (.ok true) (.ok true)
  | refused (why : Refusal) : Heard (.ok false) (.error (.attributeViolation why))
  | faulty (fault : Fault) : Heard (.error fault) (.error fault)

namespace Verdict.Heard

variable {lenient strict : Except Fault Bool}

theorem of_verdict (verdict : Verdict) : Heard (verdict.report false) (verdict.report true) := by
  cases verdict with
  | accepted => exact .accepted
  | refused why => exact .refused why

/-- What is no refusal is heard by both. -/
theorem eq_error_iff (heard : Heard lenient strict) {fault : Fault}
    (unrefused : fault.isRefusal = false) : lenient = .error fault ↔ strict = .error fault := by
  cases heard with
  | accepted => exact Iff.rfl
  | refused why =>
    constructor
    · intro same
      cases same
    · intro same
      cases same
      cases unrefused
  | faulty other => exact Iff.rfl

end Verdict.Heard

namespace Heap

/-- On any heap the lenient and the strict run of a command either both do not end, or they end with
the same heap, and the outcomes differ only if the lenient one is a refusal.  A fault that is no
refusal reaches either caller. -/
theorem strict_run_eq_lenient (demand : Demand) (engine : Engine) (heap : Heap) :
    Option.Rel
        (fun lenient strict => strict.2 = lenient.2 ∧ Verdict.Heard lenient.1 strict.1)
        (((demand.command false).execute engine).on heap)
        (((demand.command true).execute engine).on heap) ∧
      ∀ fault after, fault.isRefusal = false →
        (((demand.command false).execute engine).on heap = some (.error fault, after) ↔
          ((demand.command true).execute engine).on heap = some (.error fault, after)) := by
  simp only [demand.execute_command, on_report]
  cases (demand.verdict engine).on heap with
  | none => exact ⟨.none, fun _ _ _ => Iff.rfl⟩
  | some ended =>
    obtain ⟨outcome, last⟩ := ended
    have heard : Verdict.Heard (outcome.bind (Verdict.report false))
        (outcome.bind (Verdict.report true)) := by
      cases outcome with
      | error fault => exact .faulty fault
      | ok verdict => exact .of_verdict verdict
    refine ⟨.some ⟨rfl, heard⟩, ?_⟩
    intro fault after unrefused
    have both := heard.eq_error_iff unrefused
    simp only [Option.map_some, Option.some.injEq, Prod.mk.injEq, both]

def readOnlyHeap : Heap where
  cells := #[.new (.array
    { ArrayObject.new none {} with
      elements := .dense [some (.fixed .null true)] 1
      length := 1
      elementCount := 1
      describedCount := 1 })]
  policy := {}
  collections := #[]
  names := []
  log := []

/-- The element refuses to be overwritten, and `undefined` is no length for anyone. -/
theorem strict_run_eq_lenient_readOnlyHeap :
    (Verdict.Heard (.ok false) (.error (.attributeViolation (.readOnlyOf (.index 0) .array))) ∧
      ((Command.put ⟨0⟩ (.index 0) .undefined false).execute (.within 0)).on readOnlyHeap =
        some (.ok false, readOnlyHeap)) ∧
      Fault.isRefusal (.range .arrayLength) = false ∧
      ((Command.put ⟨0⟩ .length .undefined true).execute (.within 0)).on readOnlyHeap =
        some (.error (.range .arrayLength), readOnlyHeap) := by
  have element := strict_run_eq_lenient (.put ⟨0⟩ (.index 0) .undefined) (.within 0) readOnlyHeap
  have length := strict_run_eq_lenient (.put ⟨0⟩ .length .undefined) (.within 0) readOnlyHeap
  refine ⟨⟨?_, rfl⟩, rfl, (length.2 (.range .arrayLength) readOnlyHeap rfl).mp rfl⟩
  cases element.1 with
  | some both => exact both.2

end Heap

end ObjectModel
