import ObjectModel.Proofs.Array.WellFormed
import ObjectModel.Proofs.Object.Atomicity

/-!
# Mutations of arrays

What the mutations of an array amount to.  Every mutation of an own property is made of a few
changes, each under a condition that the mutation has checked, so a fact about arrays is kept by all
mutations if the changes keep it; that an array is well formed is one.
-/

namespace ObjectModel

theorem Slot.isDescribed_write? {slot written : Slot} {value : Value}
    (overwritten : slot.write? value = some written) : written.isDescribed = slot.isDescribed := by
  cases slot with
  | bare old =>
    cases overwritten
    rfl
  | described descriptor =>
    cases descriptor with
    | data old attributes =>
      simp only [Slot.write?] at overwritten
      split at overwritten
      next =>
        cases overwritten
        rfl
      next => cases overwritten
    | accessor get set attributes => cases overwritten

namespace ArrayObject

def mutateOwn (mutation : OwnMutation) (strict : Bool) : Mutation ArrayObject Bool :=
  match mutation with
  | .write key value => writeOwn key value strict
  | .add key value => addOwn key value strict
  | .define key request => defineOwn key request strict
  | .delete key => deleteOwn key strict

def mutate (array : ArrayObject) : OwnMutation → Except Fault (Verdict × ArrayObject)
  | .write key value => array.write key value
  | .add key value => array.add key value
  | .define key request => array.define key request
  | .delete key => .ok (array.delete key)

theorem on_mutateOwn (array : ArrayObject) (mutation : OwnMutation) (strict : Bool) :
    (mutateOwn mutation strict).on array =
      Verdict.settle strict array (array.mutate mutation) := by
  cases mutation with
  | write key value => exact array.on_writeOwn key value
  | add key value => exact array.on_addOwn key value
  | define key request => exact array.on_defineOwn key request
  | delete key => exact array.on_deleteOwn key

theorem toArrayLength_le {value : Value} {length : Nat}
    (converted : toArrayLength value = .ok length) : length ≤ maxArrayLength := by
  simp only [toArrayLength] at converted
  split at converted
  next n whole =>
    split at converted
    next bounds =>
      cases converted
      exact Int.toNat_le.mpr bounds.2
    next => cases converted
  next => cases converted

theorem truncate_of_length_le (array : ArrayObject) {target : Nat}
    (longer : array.length ≤ target) :
    array.truncate target = (.accepted, { array with length := target }) := by
  have notShorter : ¬target < array.length := Nat.not_lt_of_le longer
  have unblocked : array.blocker? target = none := by
    rw [blocker?, if_neg fun both => notShorter both.1]
  simp only [truncate, unblocked, if_neg notShorter]

theorem cover_eq (array : ArrayObject) (index : Nat) :
    array.cover index =
      if index < array.length then .ok (.accepted, array)
      else if maxArrayLength ≤ index then .error (.range .arrayLength)
      else if array.lengthWritable then .ok (.accepted, { array with length := index + 1 })
      else .ok (.refused (.readOnlyOf .length .array), array) := by
  simp only [cover]
  by_cases inside : index < array.length
  · rw [if_pos inside, if_pos inside]
  · rw [if_neg inside, if_neg inside]
    by_cases possible : index < maxArrayLength
    · have different : ¬index + 1 = array.length := by omega
      rw [if_pos possible, if_neg (Nat.not_le_of_lt possible), setLength, if_neg different,
        truncate_of_length_le array (by omega : array.length ≤ index + 1)]
      cases array.lengthWritable <;> rfl
    · rw [if_neg possible, if_pos (Nat.le_of_not_lt possible)]

theorem place_eq (array : ArrayObject) (index : Nat) (slot : Slot) :
    array.place index slot =
      if index < array.length then .ok (.accepted, array.store index slot)
      else if maxArrayLength ≤ index then .error (.range .arrayLength)
      else if array.lengthWritable then
        .ok (.accepted, ({ array with length := index + 1 } : ArrayObject).store index slot)
      else .ok (.refused (.readOnlyOf .length .array), array) := by
  rw [place, cover_eq]
  split
  · rfl
  · split
    · rfl
    · split <;> rfl

/-- An array whose length is assigned is as before but for the length, or cut there as well. -/
theorem exists_setLength_eq (array : ArrayObject) (length : Nat) :
    ∃ bound, (array.setLength length).2 = { array with length := bound } ∨
      (array.setLength length).2 = { array.dropFrom bound with length := bound } := by
  have shrunk (bound : Nat) :
      { (if length < array.length then array.dropFrom bound else array) with length := bound } =
          { array with length := bound } ∨
        { (if length < array.length then array.dropFrom bound else array) with length := bound } =
          { array.dropFrom bound with length := bound } := by
    split
    next => exact .inr rfl
    next => exact .inl rfl
  simp only [ArrayObject.setLength, truncate]
  split
  next => exact ⟨array.length, .inl rfl⟩
  next =>
    split
    next =>
      cases array.blocker? length with
      | none => exact ⟨length, shrunk length⟩
      | some index => exact ⟨index + 1, shrunk (index + 1)⟩
    next => exact ⟨array.length, .inl rfl⟩

theorem base_setLength (array : ArrayObject) (length : Nat) :
    (array.setLength length).2.base = array.base := by
  obtain ⟨bound, same | cut⟩ := array.exists_setLength_eq length
  · rw [same]
  · rw [cut]
    rfl

/-- The changes that a mutation of an own property is made of.  That what is stored or done to the
other properties suits the array is known only of suited mutations. -/
inductive Edits (suited : Prop) : ArrayObject → ArrayObject → Prop
  | refl (array : ArrayObject) : Edits suited array array
  | trans {first second third : ArrayObject} (before : Edits suited first second)
      (after : Edits suited second third) : Edits suited first third
  | withBase {array : ArrayObject} {base : OrdinaryObject}
      (evolves : suited → array.base.view.Evolves base.view)
      (linked : base.prototype = array.base.prototype) : Edits suited array { array with base }
  | store {array : ArrayObject} {index : Nat} {slot : Slot} (inside : index < array.length)
      (succeeds : suited →
        Slot.Succeeds array.base.extensible (array.element? index) (some slot)) :
      Edits suited array (array.store index slot)
  | modify {array : ArrayObject} {index : Nat} {slot written : Slot} {value : Value}
      (found : array.element? index = some slot) (overwritten : slot.write? value = some written) :
      Edits suited array { array with elements := array.elements.modify index written }
  | remove {array : ArrayObject} {index : Nat} {slot : Slot}
      (found : array.element? index = some slot) (configurable : slot.isConfigurable = true) :
      Edits suited array
        { array with
          elements := array.elements.clear index
          elementCount := array.elementCount - 1
          describedCount := array.describedCount - slot.isDescribed.toNat }
  | lengthen {array : ArrayObject} {length : Nat} (writable : array.lengthWritable = true)
      (longer : array.length ≤ length) (possible : length ≤ maxArrayLength) :
      Edits suited array { array with length }
  | setLength {array : ArrayObject} {length : Nat} (possible : length ≤ maxArrayLength) :
      Edits suited array (array.setLength length).2
  | defineWritable {array : ArrayObject} (resized : Verdict) (request : Request) :
      Edits suited array (array.defineWritable resized request).2

section Mutations

variable {array next : ArrayObject} {verdict : Verdict} {suited : Prop}

theorem edits_place {index : Nat} {slot : Slot}
    (succeeds : suited → Slot.Succeeds array.base.extensible (array.element? index) (some slot))
    (done : array.place index slot = .ok (verdict, next)) : Edits suited array next := by
  rw [place_eq] at done
  split at done
  next inside =>
    cases done
    exact .store inside succeeds
  next outside =>
    split at done
    next => cases done
    next possible =>
      split at done
      next writable =>
        cases done
        have longer : array.length ≤ index + 1 :=
          Nat.le_succ_of_le (Nat.le_of_not_lt outside)
        have lengthened : Edits suited array { array with length := index + 1 } :=
          .lengthen writable longer (Nat.lt_of_not_le possible)
        exact lengthened.trans (.store (Nat.lt_succ_self index) succeeds)
      next =>
        cases done
        exact .refl array

theorem edits_defineLength {request : Request}
    (done : array.defineLength request = .ok (verdict, next)) : Edits suited array next := by
  rw [defineLength] at done
  split at done
  next =>
    cases done
    exact .refl array
  next =>
    split at done
    next =>
      cases done
      exact .defineWritable .accepted request
    next value _ =>
      obtain ⟨length, converted, defined⟩ := exists_of_map_eq_ok done
      cases defined
      have resized : Edits suited array (array.setLength length).2 :=
        .setLength (toArrayLength_le converted)
      exact resized.trans (.defineWritable (array.setLength length).1 request)

theorem edits_add {key : Key} {value : Value} (absent : suited → array.getOwn key = none)
    (done : array.add key value = .ok (verdict, next)) : Edits suited array next := by
  cases key with
  | index i =>
    simp only [add] at done
    split at done
    next extensible =>
      apply edits_place _ done
      intro suits
      have missing : array.element? i.toNat = none := absent suits
      rw [missing, extensible]
      exact .of_extensible _
    next =>
      cases done
      exact .refl array
  | named text =>
    cases done
    apply Edits.withBase
    case evolves =>
      intro suits
      have missing := absent suits
      simp only [getOwn] at missing
      split at missing
      next => cases missing
      next => exact OrdinaryObject.evolves_add missing value
    case linked => exact (array.base.allOrNothing_add (.named text) value).linked rfl

theorem edits_write {key : Key} {value : Value}
    (done : array.write key value = .ok (verdict, next)) : Edits suited array next := by
  cases key with
  | index i =>
    simp only [write] at done
    split at done
    next absent =>
      have missing : array.getOwn (.index i) = none := absent
      exact edits_add (fun _ => missing) done
    next old found =>
      split at done
      next written overwritten =>
        cases done
        exact .modify found overwritten
      next =>
        cases done
        exact .refl array
  | named text =>
    simp only [write] at done
    split at done
    next =>
      obtain ⟨length, converted, done⟩ := exists_of_bind_eq_ok done
      have assigned : array.setLength length = (verdict, next) := Except.ok.inj done
      have edits : Edits suited array (array.setLength length).2 :=
        .setLength (toArrayLength_le converted)
      rw [assigned] at edits
      exact edits
    next =>
      cases done
      exact .withBase (fun _ => array.base.evolves_write (.named text) value)
        ((array.base.allOrNothing_write (.named text) value).linked rfl)

theorem edits_define {key : Key} {request : Request}
    (done : array.define key request = .ok (verdict, next)) : Edits suited array next := by
  cases key with
  | index i =>
    obtain ⟨resolution, decided, done⟩ := exists_of_bind_eq_ok done
    cases resolution with
    | stored slot => exact edits_place (fun _ => succeeds_resolution decided) done
    | refused why =>
      cases done
      exact .refl array
  | named text =>
    simp only [define] at done
    split at done
    next => exact edits_defineLength done
    next =>
      obtain ⟨⟨_, base⟩, defined, done⟩ := exists_of_bind_eq_ok done
      cases done
      exact .withBase (fun _ => OrdinaryObject.evolves_define defined)
        ((array.base.allOrNothing_define (.named text) request).linked defined)

theorem edits_delete (array : ArrayObject) (key : Key) :
    Edits suited array (array.delete key).2 := by
  cases key with
  | index i =>
    simp only [delete]
    split
    next => exact .refl array
    next slot found =>
      split
      next configurable => exact .remove found configurable
      next => exact .refl array
  | named text =>
    simp only [delete]
    split
    next => exact .refl array
    next =>
      exact .withBase (fun _ => array.base.evolves_delete (.named text))
        ((array.base.allOrNothing_delete (.named text)).linked rfl)

/-- All that a mutation of an own property can do. -/
theorem edits_mutate {mutation : OwnMutation}
    (done : array.mutate mutation = .ok (verdict, next)) :
    Edits (mutation.Suits array.getOwn) array next := by
  cases mutation with
  | write key value => exact edits_write done
  | add key value => exact edits_add id done
  | define key request => exact edits_define done
  | delete key =>
    have deleted : array.delete key = (verdict, next) := Except.ok.inj done
    have edits : Edits ((OwnMutation.delete key).Suits array.getOwn) array (array.delete key).2 :=
      array.edits_delete key
    rw [deleted] at edits
    exact edits

theorem WellFormed.withBase (wellFormed : array.WellFormed) (base : OrdinaryObject) :
    ({ array with base } : ArrayObject).WellFormed :=
  wellFormed.congr rfl rfl rfl rfl

theorem Edits.wellFormed (edits : Edits suited array next) (wellFormed : array.WellFormed) :
    next.WellFormed := by
  induction edits with
  | refl array => exact wellFormed
  | trans before after first second => exact second (first wellFormed)
  | withBase evolves linked => exact wellFormed.withBase _
  | store inside succeeds => exact wellFormed.store inside _
  | modify found overwritten => exact wellFormed.modify found (Slot.isDescribed_write? overwritten)
  | remove found configurable => exact wellFormed.remove found
  | lengthen writable longer possible => exact wellFormed.lengthen longer possible
  | setLength possible => exact wellFormed.setLength possible
  | defineWritable resized request => exact wellFormed.congr rfl rfl rfl rfl

theorem Edits.prototype (edits : Edits suited array next) :
    next.base.prototype = array.base.prototype := by
  induction edits with
  | trans before after first second => exact second.trans first
  | withBase evolves linked => exact linked
  | setLength possible => exact congrArg OrdinaryObject.prototype (base_setLength _ _)
  | _ => rfl

end Mutations

end ArrayObject

end ObjectModel
