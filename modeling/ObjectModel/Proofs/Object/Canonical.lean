import ObjectModel.Proofs.Array.Refinement
import ObjectModel.Proofs.Host.Map
import ObjectModel.Proofs.Object.Listing
import ObjectModel.Proofs.Property.Stability

/-!
# Objects with canonical properties

All that is stored in an object, as an element or as a further property, is stored as its
description is: a bare value whenever all attributes are set.  Mutations store nothing else.
-/

namespace ObjectModel

namespace OrdinaryObject

variable {object next : OrdinaryObject} {mutation : OwnMutation} {verdict : Verdict}

def Canonical (object : OrdinaryObject) : Prop :=
  ∀ key slot, object.getOwn key = some slot → slot.Canonical

namespace Canonical

theorem new (prototype : Option ObjectId) : (OrdinaryObject.new prototype).Canonical := by
  intro key slot found
  cases found

theorem store (canonical : object.Canonical) (key : Key) {slot : Slot} (stored : slot.Canonical) :
    (object.store key slot).Canonical := by
  intro other found isFound
  rw [getOwn_store] at isFound
  split at isFound
  next =>
    cases isFound
    exact stored
  next => exact canonical other found isFound

theorem ofFunction (name : String) (prototype : Option ObjectId) :
    (OrdinaryObject.ofFunction name prototype).Canonical :=
  (new prototype).store .name (.data (by decide))

theorem add (canonical : object.Canonical) (key : Key) (value : Value) :
    (object.add key value).2.Canonical := by
  unfold OrdinaryObject.add
  split
  next => exact canonical.store key (.bare value)
  next => exact canonical

theorem write (canonical : object.Canonical) (key : Key) (value : Value) :
    (object.write key value).2.Canonical := by
  unfold OrdinaryObject.write
  split
  next => exact canonical.add key value
  next slot found =>
    split
    next overwritten => exact canonical.store key ((canonical key slot found).write? overwritten)
    next => exact canonical

theorem define (canonical : object.Canonical) {key : Key} {request : Request}
    (done : object.define key request = .ok (verdict, next)) : next.Canonical := by
  obtain ⟨resolution, decided, done⟩ := exists_of_bind_eq_ok done
  cases resolution with
  | stored slot =>
    cases done
    exact canonical.store key (mergesInto_of_resolution (canonical key) decided).2
  | refused why =>
    cases done
    exact canonical

theorem delete (canonical : object.Canonical) (key : Key) :
    (object.delete key).2.Canonical := by
  unfold OrdinaryObject.delete
  split
  next => exact canonical
  next =>
    split
    next =>
      intro other found isFound
      have kept := (OrderedMap.get?_erase object.properties key other).symm.trans isFound
      split at kept
      next => cases kept
      next => exact canonical other found kept
    next => exact canonical

theorem mutate (canonical : object.Canonical)
    (done : object.mutate mutation = .ok (verdict, next)) : next.Canonical := by
  cases mutation with
  | write key value =>
    have mutated := canonical.write key value
    rwa [Except.ok.inj done] at mutated
  | add key value =>
    have mutated := canonical.add key value
    rwa [Except.ok.inj done] at mutated
  | define key request => exact canonical.define done
  | delete key =>
    have mutated := canonical.delete key
    rwa [Except.ok.inj done] at mutated

end Canonical

end OrdinaryObject

theorem Rebases.canonical {mutation : OwnMutation} {reserved : Key → Bool}
    {base next : OrdinaryObject} (rebases : Rebases mutation reserved base next)
    (canonical : base.Canonical) : next.Canonical := by
  cases rebases with
  | same => exact canonical
  | mutated _ done => exact canonical.mutate done

namespace Elements

variable {elements : Elements} {index : Nat} {slot : Slot}

def Canonical (elements : Elements) : Prop :=
  ∀ index slot, elements.get? index = some slot → slot.Canonical

theorem canonical_iff :
    elements.Canonical ↔ ∀ slot ∈ elements.toSparse.values, slot.Canonical := by
  constructor
  · intro canonical slot member
    obtain ⟨⟨index, _⟩, memberEntry, rfl⟩ := List.mem_map.mp member
    have found := AscendingMap.get?_eq_some_iff.mpr memberEntry
    rw [get?_toSparse] at found
    exact canonical index _ found
  · intro canonical index slot found
    rw [← get?_toSparse] at found
    exact canonical slot (List.mem_map_of_mem (AscendingMap.get?_eq_some_iff.mp found))

namespace Canonical

theorem empty : Elements.empty.Canonical := by
  intro index slot found
  cases found

theorem ofValues (values : List Value) : (Elements.ofValues values).Canonical := by
  intro index slot found
  simp only [Elements.ofValues, Elements.get?, List.getElem?_map, Option.join_eq_some_iff,
    Option.map_eq_some_iff] at found
  obtain ⟨value, _, isBare⟩ := found
  cases isBare
  exact .bare value

theorem clear (canonical : elements.Canonical) (index : Nat) :
    (elements.clear index).Canonical := by
  intro other found isFound
  rw [get?_clear] at isFound
  split at isFound
  next => cases isFound
  next => exact canonical other found isFound

theorem put (canonical : elements.Canonical) (policy : Policy) (count index : Nat)
    (stored : slot.Canonical) : (elements.put policy count index slot).Canonical := by
  intro other found isFound
  rw [get?_put] at isFound
  split at isFound
  next =>
    cases isFound
    exact stored
  next => exact canonical other found isFound

theorem modify (canonical : elements.Canonical) (present : (elements.get? index).isSome)
    (stored : slot.Canonical) : (elements.modify index slot).Canonical := by
  intro other found isFound
  rw [get?_modify present] at isFound
  split at isFound
  next =>
    cases isFound
    exact stored
  next => exact canonical other found isFound

theorem dropFrom (canonical : elements.Canonical) (policy : Policy) (target : Nat) :
    (elements.dropFrom policy target).Canonical := by
  intro other found isFound
  rw [get?_dropFrom] at isFound
  split at isFound
  next => exact canonical other found isFound
  next => cases isFound

theorem sortSwap (canonical : elements.Canonical) (a b : Nat) :
    (elements.sortSwap a b).Canonical := by
  rw [canonical_iff] at canonical ⊢
  intro slot member
  exact canonical slot ((elements.values_sortSwap a b).mem_iff.mp member)

end Canonical

end Elements

namespace ArrayObject

variable {array next : ArrayObject} {mutation : OwnMutation} {verdict : Verdict}

/-- Whether an array is well formed and all its elements and further properties are canonical. -/
structure Canonical (array : ArrayObject) : Prop where
  wellFormed : array.WellFormed
  base : array.base.Canonical
  elements : array.elements.Canonical

section Elements

variable (canonical : array.elements.Canonical)

include canonical

theorem canonical_place {index : Nat} {slot : Slot} (stored : slot.Canonical)
    (done : array.place index slot = .ok (verdict, next)) : next.elements.Canonical := by
  have storing (length : Nat) :
      ({ array with length } : ArrayObject).store index slot |>.elements.Canonical :=
    (canonical.clear index).put _ _ _ stored
  rw [place_eq] at done
  split at done
  next =>
    cases done
    exact storing array.length
  next =>
    split at done
    next => cases done
    next =>
      split at done
      next =>
        cases done
        exact storing (index + 1)
      next =>
        cases done
        exact canonical

theorem canonical_setLength (length : Nat) : (array.setLength length).2.elements.Canonical := by
  obtain ⟨bound, same | cut⟩ := array.exists_setLength_eq length
  · rw [same]
    exact canonical
  · rw [cut]
    exact canonical.dropFrom _ bound

theorem canonical_defineLength {request : Request}
    (done : array.defineLength request = .ok (verdict, next)) : next.elements.Canonical := by
  rw [defineLength] at done
  split at done
  next =>
    cases done
    exact canonical
  next =>
    split at done
    next =>
      cases done
      exact canonical
    next value _ =>
      obtain ⟨length, _, defined⟩ := exists_of_map_eq_ok done
      cases defined
      exact canonical_setLength canonical length

theorem canonical_add {key : Key} {value : Value}
    (done : array.add key value = .ok (verdict, next)) : next.elements.Canonical := by
  cases key with
  | index i =>
    simp only [add] at done
    split at done
    next => exact canonical_place canonical (.bare value) done
    next =>
      cases done
      exact canonical
  | named text =>
    cases done
    exact canonical

theorem canonical_write {key : Key} {value : Value}
    (done : array.write key value = .ok (verdict, next)) : next.elements.Canonical := by
  cases key with
  | index i =>
    simp only [write] at done
    split at done
    next => exact canonical_add canonical done
    next slot found =>
      split at done
      next overwritten =>
        cases done
        exact canonical.modify (Option.isSome_of_eq_some found)
          ((canonical _ slot found).write? overwritten)
      next =>
        cases done
        exact canonical
  | named text =>
    simp only [write] at done
    split at done
    next =>
      obtain ⟨length, _, done⟩ := exists_of_bind_eq_ok done
      have resized := canonical_setLength canonical length
      rwa [Except.ok.inj done] at resized
    next =>
      cases done
      exact canonical

theorem canonical_define {key : Key} {request : Request}
    (done : array.define key request = .ok (verdict, next)) : next.elements.Canonical := by
  cases key with
  | index i =>
    obtain ⟨resolution, decided, done⟩ := exists_of_bind_eq_ok done
    cases resolution with
    | stored slot =>
      have stored := (mergesInto_of_resolution (canonical i.toNat) decided).2
      exact canonical_place canonical stored done
    | refused why =>
      cases done
      exact canonical
  | named text =>
    simp only [define] at done
    split at done
    next => exact canonical_defineLength canonical done
    next =>
      obtain ⟨⟨_, base⟩, _, done⟩ := exists_of_bind_eq_ok done
      cases done
      exact canonical

theorem canonical_delete (key : Key) : (array.delete key).2.elements.Canonical := by
  cases key with
  | index i =>
    simp only [delete]
    split
    next => exact canonical
    next =>
      split
      next => exact canonical.clear i.toNat
      next => exact canonical
  | named text =>
    simp only [delete]
    split
    next => exact canonical
    next => exact canonical

theorem canonical_mutate (done : array.mutate mutation = .ok (verdict, next)) :
    next.elements.Canonical := by
  cases mutation with
  | write key value => exact canonical_write canonical done
  | add key value => exact canonical_add canonical done
  | define key request => exact canonical_define canonical done
  | delete key =>
    have deleted := canonical_delete canonical key
    rwa [Except.ok.inj done] at deleted

end Elements

namespace Canonical

theorem build {origin : ArrayOrigin} {prototype : Option ObjectId} {policy : Policy}
    (built : origin.build prototype policy = .ok array) : array.Canonical := by
  have parts : array.base = .new prototype ∧ array.elements.Canonical := by
    cases origin with
    | empty =>
      cases built
      exact ⟨rfl, .empty⟩
    | ofValues values =>
      simp only [ArrayOrigin.build, ArrayObject.ofValues] at built
      split at built <;> cases built
      exact ⟨rfl, .ofValues values⟩
    | ofLength length =>
      simp only [ArrayOrigin.build, ArrayObject.ofLength] at built
      split at built <;> cases built
      exact ⟨rfl, .empty⟩
  exact ⟨.build built, parts.1 ▸ .new prototype, parts.2⟩

theorem mutate (canonical : array.Canonical)
    (done : array.mutate mutation = .ok (verdict, next)) : next.Canonical where
  wellFormed := (edits_mutate done).wellFormed canonical.wellFormed
  base := (rebases_named done).canonical canonical.base
  elements := canonical_mutate canonical.elements done

end Canonical

end ArrayObject

namespace Object

variable {object next : Object}

/-- Whether all that an object stores is canonical, and an array is well formed. -/
def Canonical : Object → Prop
  | .ordinary inner => inner.Canonical
  | .array inner => inner.Canonical
  | .string inner => inner.base.Canonical
  | .map view => view.base.Canonical
  | .sequence view => view.base.Canonical
  | .function base => base.Canonical

namespace Canonical

theorem mutate (canonical : object.Canonical) {mutation : OwnMutation} {verdict : Verdict}
    (done : object.mutate mutation = .ok (verdict, next)) : next.Canonical := by
  cases mutates_of_mutate done with
  | ordinary mutated => exact OrdinaryObject.Canonical.mutate canonical mutated
  | function mutated => exact OrdinaryObject.Canonical.mutate canonical mutated
  | string mutated => exact (StringObject.rebases_mutate mutated).2.canonical canonical
  | array mutated => exact ArrayObject.Canonical.mutate canonical mutated
  | map mutated => exact (HostMap.rebases_unless_denotes mutated).canonical canonical
  | sequence mutated => exact (HostSequence.rebases_named mutated).canonical canonical

theorem setPrototype (canonical : object.Canonical) (prototype : Option ObjectId) :
    (object.setPrototype prototype).Canonical := by
  cases object with
  | array inner =>
    exact ⟨canonical.wellFormed.withBase _, canonical.base, canonical.elements⟩
  | _ => exact canonical

theorem preventExtensions (canonical : object.Canonical) :
    object.preventExtensions.Canonical := by
  cases object with
  | array inner =>
    exact ⟨canonical.wellFormed.withBase _, canonical.base, canonical.elements⟩
  | _ => exact canonical

/-- What is found in a canonical object of its own is canonical, also if it is not stored. -/
theorem getOwn (canonical : object.Canonical) (native : object.kind ≠ .host) {key : Key}
    {slot : Slot} (found : object.getOwn key = some slot) : slot.Canonical := by
  cases object with
  | ordinary inner => exact canonical key slot found
  | function base => exact canonical key slot found
  | string inner =>
    rcases Option.or_eq_some_iff.mp found with fixed | ⟨_, further⟩
    · obtain ⟨value, enumerable, rfl⟩ := StringObject.eq_fixed_of_fixed? fixed
      exact .fixed value enumerable
    · exact canonical key slot further
  | array inner =>
    cases key with
    | index i => exact canonical.elements i.toNat slot found
    | named text =>
      simp only [Object.getOwn, ArrayObject.getOwn] at found
      split at found
      next =>
        cases found
        exact .data (by simp [Attributes.standard])
      next => exact canonical.base (.named text) slot found
  | map view => exact absurd rfl native
  | sequence view => exact absurd rfl native

end Canonical

end Object

end ObjectModel
