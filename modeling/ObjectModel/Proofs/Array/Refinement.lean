import ObjectModel.Proofs.Array.Reference
import ObjectModel.Proofs.Array.Sparse

/-!
# Arrays refine their reference

What an array answers does not depend on its storage, nor on the policy that chooses the storage.
Each operation commutes with forgetting the storage, hence so does every run of operations.
-/

namespace ObjectModel.ArrayObject

/-- The array without its storage. -/
def reference (array : ArrayObject) : ReferenceArray :=
  ⟨array.base, array.elements.toSparse, array.length, array.lengthWritable⟩

theorem reference_store (array : ArrayObject) (index : Nat) (slot : Slot) :
    (array.store index slot).reference =
      { array.reference with elements := array.reference.elements.insert index slot } := by
  simp only [reference, toSparse_store]
  rfl

theorem reference_shrink (array : ArrayObject) (length : Nat) :
    ({ array.dropFrom length with length } : ArrayObject).reference =
      array.reference.cut length := by
  simp only [reference, dropFrom, Elements.toSparse_dropFrom]
  rfl

namespace WellFormed

variable {array : ArrayObject}

theorem reference_lengthen (wellFormed : array.WellFormed) {length : Nat}
    (longer : array.length ≤ length) :
    ({ array with length } : ArrayObject).reference = array.reference.cut length := by
  have all : array.elements.toSparse.filterIndex (fun index => index < length) =
      array.elements.toSparse := by
    refine AscendingMap.ext_get? ?_
    intro index
    rw [AscendingMap.get?_filterIndex]
    split
    next => rfl
    next beyond =>
      symm
      rw [Option.eq_none_iff_forall_ne_some]
      intro slot found
      rw [Elements.get?_toSparse] at found
      have below : index < array.length := wellFormed.lt_length found
      exact beyond (decide_eq_true (Nat.lt_of_lt_of_le below longer))
  simp only [reference, ReferenceArray.cut, all]

/-- Forgetting the storage commutes with assigning the length. -/
theorem reference_setLength (wellFormed : array.WellFormed) (length : Nat) :
    (array.setLength length).map id reference = array.reference.setLength length := by
  have stays : array.reference.length = array.length := rfl
  have assignable : array.reference.lengthWritable = array.lengthWritable := rfl
  have fixed : array.reference.elements = array.elements.toSparse := rfl
  simp only [ArrayObject.setLength, ReferenceArray.setLength, stays, assignable, fixed]
  split
  next => rfl
  next =>
    split
    next writable =>
      simp only [ArrayObject.truncate, wellFormed.blocker?_eq]
      cases blocked :
          array.elements.toSparse.lastFrom? (fun slot => !slot.isConfigurable) length with
      | some index =>
        have blocked' := blocked
        rw [← wellFormed.blocker?_eq] at blocked'
        have below : index < array.length := (wellFormed.blocker?_bounds blocked').2
        have above : length ≤ index := (AscendingMap.lastFrom?_eq_some blocked).1
        simp only [if_pos (Nat.lt_of_le_of_lt above below)]
        exact congrArg (Prod.mk _) (reference_shrink array (index + 1))
      | none =>
        simp only
        split
        next => exact congrArg (Prod.mk _) (reference_shrink array length)
        next notShorter =>
          have longer : array.length ≤ length := Nat.le_of_not_lt notShorter
          exact congrArg (Prod.mk _) (wellFormed.reference_lengthen longer)
    next => rfl

end WellFormed

def forget : Except Fault (Verdict × ArrayObject) → Except Fault (Verdict × ReferenceArray) :=
  Except.map (Prod.map id reference)

theorem reference_place (array : ArrayObject) (index : Nat) (slot : Slot) :
    forget (array.place index slot) = array.reference.place index slot := by
  have stays : array.reference.length = array.length := rfl
  have assignable : array.reference.lengthWritable = array.lengthWritable := rfl
  have accepted : ∀ {after : ArrayObject} {expected : ReferenceArray},
      after.reference = expected → forget (.ok (.accepted, after)) = .ok (.accepted, expected) :=
    fun same => congrArg (fun next => Except.ok (Verdict.accepted, next)) same
  rw [place_eq]
  simp only [ReferenceArray.place, stays, assignable]
  split
  next => exact accepted (reference_store array index slot)
  next =>
    split
    next => rfl
    next =>
      split
      next => exact accepted (reference_store { array with length := index + 1 } index slot)
      next => rfl

theorem reference_getOwn (array : ArrayObject) (key : Key) :
    array.reference.getOwn key = array.getOwn key := by
  cases key with
  | index i => exact Elements.get?_toSparse array.elements i.toNat
  | named text => rfl

theorem reference_ownKeys (array : ArrayObject) : array.reference.ownKeys = array.ownKeys := by
  simp only [ReferenceArray.ownKeys, ownKeys, reference, Elements.entries_toSparse]

theorem reference_add (array : ArrayObject) (key : Key) (value : Value) :
    forget (array.add key value) = array.reference.add key value := by
  cases key with
  | index i =>
    simp only [add, ReferenceArray.add]
    have extensible : array.reference.base.extensible = array.base.extensible := rfl
    rw [extensible]
    split
    next => exact reference_place array i.toNat (.bare value)
    next => rfl
  | named text => rfl

theorem reference_delete (array : ArrayObject) (key : Key) :
    (array.delete key).map id reference = array.reference.delete key := by
  cases key with
  | index i =>
    have stored : array.reference.elements.get? i.toNat = array.element? i.toNat :=
      Elements.get?_toSparse array.elements i.toNat
    simp only [delete, ReferenceArray.delete, stored]
    cases array.element? i.toNat with
    | none => rfl
    | some slot =>
      simp only
      split
      next =>
        simp only [Prod.map, id, reference, Elements.toSparse_clear]
      next => rfl
  | named text =>
    simp only [delete, ReferenceArray.delete]
    split <;> rfl

namespace WellFormed

variable {array : ArrayObject}

theorem reference_defineLength (wellFormed : array.WellFormed) (request : Request) :
    forget (array.defineLength request) = array.reference.defineLength request := by
  have finish : ∀ (after : ArrayObject) (resized : Verdict),
      (after.defineWritable resized request).map id reference =
        after.reference.defineWritable resized request := fun _ _ => rfl
  rw [defineLength]
  simp only [ReferenceArray.defineLength]
  split
  next => rfl
  next =>
    cases request.value with
    | none => exact congrArg Except.ok (finish array .accepted)
    | some value =>
      cases converted : toArrayLength value with
      | error fault => simp only [converted, Except.map, forget]
      | ok length =>
        simp only [converted, Except.map, forget, finish, ← wellFormed.reference_setLength]
        rfl

theorem reference_write (wellFormed : array.WellFormed) (key : Key) (value : Value) :
    forget (array.write key value) = array.reference.write key value := by
  cases key with
  | index i =>
    have stored : array.reference.elements.get? i.toNat = array.element? i.toNat :=
      Elements.get?_toSparse array.elements i.toNat
    simp only [ArrayObject.write, ReferenceArray.write, stored]
    cases found : array.element? i.toNat with
    | none => exact reference_add array (.index i) value
    | some slot =>
      simp only
      cases slot.write? value with
      | none => rfl
      | some written =>
        have present : (array.elements.get? i.toNat).isSome := Option.isSome_of_eq_some found
        simp only [forget, Except.map, Prod.map, id, reference, Elements.toSparse_modify present]
  | named text =>
    simp only [ArrayObject.write, ReferenceArray.write]
    split
    next =>
      cases converted : toArrayLength value with
      | error fault => rfl
      | ok length => exact congrArg Except.ok (wellFormed.reference_setLength length)
    next => rfl

theorem reference_define (wellFormed : array.WellFormed) (key : Key) (request : Request) :
    forget (array.define key request) = array.reference.define key request := by
  cases key with
  | index i =>
    have stored : array.reference.elements.get? i.toNat = array.element? i.toNat :=
      Elements.get?_toSparse array.elements i.toNat
    have extensible : array.reference.base.extensible = array.base.extensible := rfl
    simp only [ArrayObject.define, ReferenceArray.define, stored, extensible]
    cases resolution (.index i) (array.element? i.toNat) request array.base.extensible with
    | error fault => rfl
    | ok resolution =>
      cases resolution with
      | stored slot => exact reference_place array i.toNat slot
      | refused why => rfl
  | named text =>
    have base : array.reference.base = array.base := rfl
    simp only [ArrayObject.define, ReferenceArray.define, base]
    split
    next => exact wellFormed.reference_defineLength request
    next => cases array.base.define (.named text) request <;> rfl

/-- Forgetting the storage commutes with every mutation of an own property. -/
theorem reference_mutate (wellFormed : array.WellFormed) (mutation : OwnMutation) :
    forget (array.mutate mutation) = array.reference.mutate mutation := by
  cases mutation with
  | write key value => exact wellFormed.reference_write key value
  | add key value => exact reference_add array key value
  | define key request => exact wellFormed.reference_define key request
  | delete key => exact congrArg Except.ok (reference_delete array key)

end WellFormed

theorem reference_ofMutation (array : ArrayObject) (strict : Bool)
    (judged : Except Fault (Verdict × ArrayObject)) :
    (ArrayAnswer.ofMutation (Verdict.settle strict array judged)).map id reference =
      ArrayAnswer.ofMutation (Verdict.settle strict array.reference (forget judged)) := by
  cases judged <;> rfl

/-- An array answers like its reference, and goes on like it. -/
theorem WellFormed.reference_answer {array : ArrayObject} (wellFormed : array.WellFormed)
    (call : ArrayCall) : (array.answer call).map id reference = array.reference.answer call := by
  cases call with
  | getOwn key => simp only [answer, ReferenceArray.answer, Prod.map, id, reference_getOwn]
  | ownKeys => simp only [answer, ReferenceArray.answer, Prod.map, id, reference_ownKeys]
  | length => rfl
  | elementCount =>
    have size : array.reference.elements.size = array.elementCount := wellFormed.size_eq
    simp only [answer, ReferenceArray.answer, Prod.map, id, size]
  | isExtensible => rfl
  | own mutation strict =>
    simp only [answer, ReferenceArray.answer, on_mutateOwn, reference_ofMutation,
      wellFormed.reference_mutate]
  | setLength length strict =>
    simp only [answer, ReferenceArray.answer, on_assignLength, reference_ofMutation,
      ← wellFormed.reference_setLength]
    rfl
  | preventExtensions => rfl

/-- What a call leaves behind is what the mutation in it leaves behind, if there is one. -/
theorem answer_snd (array : ArrayObject) (call : ArrayCall) :
    (array.answer call).2 = array ∨ ∃ mutation, (array.answer call).2 = array.after mutation := by
  cases call with
  | getOwn key => exact .inl rfl
  | ownKeys => exact .inl rfl
  | length => exact .inl rfl
  | elementCount => exact .inl rfl
  | isExtensible => exact .inl rfl
  | own mutation strict => exact .inr ⟨.own mutation strict, rfl⟩
  | setLength length strict => exact .inr ⟨.setLength length strict, rfl⟩
  | preventExtensions => exact .inr ⟨.preventExtensions, rfl⟩

theorem WellFormed.answer {array : ArrayObject} (wellFormed : array.WellFormed)
    (call : ArrayCall) : (array.answer call).2.WellFormed := by
  rcases array.answer_snd call with unchanged | ⟨mutation, mutated⟩
  · rw [unchanged]
    exact wellFormed
  · rw [mutated]
    exact wellFormed.after mutation

/-- A run of calls is answered like the reference answers it. -/
theorem WellFormed.reference_answers {array : ArrayObject} (wellFormed : array.WellFormed)
    (calls : List ArrayCall) :
    (answers ArrayObject.answer array calls).map id reference =
      answers ReferenceArray.answer array.reference calls := by
  induction calls generalizing array with
  | nil => rfl
  | cons call rest inductionHypothesis =>
    have following := inductionHypothesis (wellFormed.answer call)
    simp only [answers, ← wellFormed.reference_answer call, Prod.map, id, ← following]

/-- A new array is the new reference, whatever the policy. -/
theorem reference_build (origin : ArrayOrigin) (prototype : Option ObjectId) (policy : Policy) :
    (origin.build prototype policy).map reference = origin.buildReference prototype := by
  cases origin with
  | empty => rfl
  | ofValues values =>
    simp only [ArrayOrigin.build, ArrayOrigin.buildReference, ofValues]
    split <;> rfl
  | ofLength length =>
    simp only [ArrayOrigin.build, ArrayOrigin.buildReference, ofLength]
    split <;> rfl

theorem WellFormed.build {array : ArrayObject} {origin : ArrayOrigin}
    {prototype : Option ObjectId} {policy : Policy}
    (built : origin.build prototype policy = .ok array) : array.WellFormed := by
  cases origin with
  | empty =>
    cases built
    exact .new prototype policy
  | ofValues values => exact .ofValues built
  | ofLength length => exact .ofLength built

theorem isSparse_answers {array : ArrayObject} (sparse : array.elements.isSparse = true)
    (calls : List ArrayCall) :
    (answers ArrayObject.answer array calls).2.elements.isSparse = true := by
  induction calls generalizing array with
  | nil => exact sparse
  | cons call rest inductionHypothesis =>
    have next : (array.answer call).2.elements.isSparse = true := by
      rcases array.answer_snd call with unchanged | ⟨mutation, mutated⟩
      · rw [unchanged]
        exact sparse
      · rw [mutated]
        exact isSparse_after sparse mutation
    exact inductionHypothesis next

theorem answers_append_snd (array : ArrayObject) (first rest : List ArrayCall) :
    (answers ArrayObject.answer array (first ++ rest)).2 =
      (answers ArrayObject.answer (answers ArrayObject.answer array first).2 rest).2 := by
  induction first generalizing array with
  | nil => rfl
  | cons call others inductionHypothesis => exact inductionHypothesis (array.answer call).2

/-- Runs of calls on an array are answered like the reference answers them, which leaves behind the
same elements, length and other properties; so the policy cannot be told from the answers.  A store
keeps all other elements in their places, whether or not the storage changes, and sparse storage
stays sparse. -/
theorem answers_eq_reference (origin : ArrayOrigin) (prototype : Option ObjectId)
    (policy : Policy) :
    (∀ calls,
      (origin.build prototype policy).map
          (fun array => (answers ArrayObject.answer array calls).map id reference) =
        (origin.buildReference prototype).map
          fun array => answers ReferenceArray.answer array calls) ∧
      (∀ otherPolicy calls,
        (origin.build prototype policy).map
            (fun array => (answers ArrayObject.answer array calls).1) =
          (origin.build prototype otherPolicy).map
            fun array => (answers ArrayObject.answer array calls).1) ∧
      (∀ array : ArrayObject, ∀ index slot,
        (array.store index slot).elements.entries =
          (array.elements.toSparse.insert index slot).entries) ∧
      ∀ array, origin.build prototype policy = .ok array → ∀ first rest,
        (answers ArrayObject.answer array first).2.elements.isSparse = true →
          (answers ArrayObject.answer array (first ++ rest)).2.elements.isSparse = true := by
  have simulated : ∀ policy calls,
      (origin.build prototype policy).map
          (fun array => (answers ArrayObject.answer array calls).map id reference) =
        (origin.buildReference prototype).map
          fun array => answers ReferenceArray.answer array calls := by
    intro policy calls
    rw [← reference_build origin prototype policy]
    cases built : origin.build prototype policy with
    | error fault => rfl
    | ok array =>
      have run := (WellFormed.build built).reference_answers calls
      exact congrArg Except.ok run
  have answered : ∀ policy calls,
      (origin.build prototype policy).map
          (fun array => (answers ArrayObject.answer array calls).1) =
        (origin.buildReference prototype).map
          fun array => (answers ReferenceArray.answer array calls).1 := by
    intro policy calls
    have composed : ∀ {α β γ : Type} (f : α → β) (g : β → γ) (outcome : Except Fault α),
        (outcome.map f).map g = outcome.map (g ∘ f) := by
      intro α β γ f g outcome
      cases outcome <;> rfl
    have firsts := congrArg (Except.map Prod.fst) (simulated policy calls)
    rw [composed, composed] at firsts
    exact firsts
  refine ⟨simulated policy, ?_, ?_, ?_⟩
  · intro otherPolicy calls
    rw [answered policy, answered otherPolicy]
  · intro array index slot
    rw [← Elements.entries_toSparse, toSparse_store]
  · intro array _ first rest sparse
    rw [answers_append_snd]
    exact isSparse_answers sparse rest

def storeFar : List ArrayCall := [.own (.add (.index 5000) .null) true]

theorem answers_eq_reference_storeFar :
    (ArrayOrigin.empty.build none {} = .ok (new none {})) ∧
      (answers ArrayObject.answer (new none {}) storeFar).2.elements.isSparse = true ∧
      (answers ArrayObject.answer (new none {})
        (storeFar ++ [.setLength 1 true])).2.elements.isSparse = true :=
  ⟨rfl, rfl, (answers_eq_reference .empty none {}).2.2.2 (new none {}) rfl storeFar
    [.setLength 1 true] rfl⟩

end ObjectModel.ArrayObject
