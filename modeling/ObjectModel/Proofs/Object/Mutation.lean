import ObjectModel.Proofs.Array.Evolution
import ObjectModel.Proofs.Object.Atomicity
import ObjectModel.Proofs.Outcome

/-!
# Mutations of objects

Whatever represents an object, mutations keep its kind, and unless it shows a host collection they
only do to it what evolution allows.
-/

namespace ObjectModel

namespace Object

variable {object next : Object} {verdict : Verdict} {mutation : OwnMutation}

def view (object : Object) : OwnView :=
  ⟨object.getOwn, object.ownKeys, object.prototype, object.isExtensible⟩

/-- Objects other than arrays are well formed. -/
def WellFormed : Object → Prop
  | .array inner => inner.WellFormed
  | _ => True

/-- What may become of an object; host collections obey their hosts. -/
structure Evolves (before after : Object) : Prop where
  kind : after.kind = before.kind
  view : before.kind ≠ .host → before.view.Evolves after.view

namespace Evolves

theorem refl (object : Object) : object.Evolves object where
  kind := rfl
  view _ := .refl _

theorem trans {first second third : Object} (before : first.Evolves second)
    (after : second.Evolves third) : first.Evolves third where
  kind := after.kind.trans before.kind
  view native := by
    have nativeBetween : second.kind ≠ .host := by
      rw [before.kind]
      exact native
    exact (before.view native).trans (after.view nativeBetween)

end Evolves

theorem mutate_ordinary (inner : OrdinaryObject) (mutation : OwnMutation) :
    (Object.ordinary inner).mutate mutation =
      (inner.mutate mutation).map (·.map id .ordinary) := by
  cases mutation <;> rfl

theorem mutate_function (base : OrdinaryObject) (mutation : OwnMutation) :
    (Object.function base).mutate mutation =
      (base.mutate mutation).map (·.map id .function) := by
  cases mutation <;> rfl

theorem mutate_string (inner : StringObject) (mutation : OwnMutation) :
    (Object.string inner).mutate mutation = (inner.mutate mutation).map (·.map id .string) := by
  cases mutation <;> rfl

theorem mutate_array (inner : ArrayObject) (mutation : OwnMutation) :
    (Object.array inner).mutate mutation = (inner.mutate mutation).map (·.map id .array) := by
  cases mutation <;> rfl

theorem mutate_map {keyType : KeyType} {elementType : ElementType}
    (view : HostMap keyType elementType) (mutation : OwnMutation) :
    (Object.map view).mutate mutation = (view.mutate mutation).map (·.map id .map) := by
  cases mutation <;> rfl

theorem mutate_sequence {elementType : ElementType} (view : HostSequence elementType)
    (mutation : OwnMutation) :
    (Object.sequence view).mutate mutation = (view.mutate mutation).map (·.map id .sequence) := by
  cases mutation <;> rfl

/-- A mutation of an object is one of what represents it. -/
inductive Mutates (mutation : OwnMutation) (verdict : Verdict) : Object → Object → Prop
  | ordinary {inner after : OrdinaryObject}
      (mutated : inner.mutate mutation = .ok (verdict, after)) :
      Mutates mutation verdict (.ordinary inner) (.ordinary after)
  | function {base after : OrdinaryObject} (mutated : base.mutate mutation = .ok (verdict, after)) :
      Mutates mutation verdict (.function base) (.function after)
  | string {inner after : StringObject} (mutated : inner.mutate mutation = .ok (verdict, after)) :
      Mutates mutation verdict (.string inner) (.string after)
  | array {inner after : ArrayObject} (mutated : inner.mutate mutation = .ok (verdict, after)) :
      Mutates mutation verdict (.array inner) (.array after)
  | map {keyType : KeyType} {elementType : ElementType} {view after : HostMap keyType elementType}
      (mutated : view.mutate mutation = .ok (verdict, after)) :
      Mutates mutation verdict (.map view) (.map after)
  | sequence {elementType : ElementType} {view after : HostSequence elementType}
      (mutated : view.mutate mutation = .ok (verdict, after)) :
      Mutates mutation verdict (.sequence view) (.sequence after)

theorem mutates_of_mutate (done : object.mutate mutation = .ok (verdict, next)) :
    Mutates mutation verdict object next := by
  cases object with
  | ordinary inner =>
    rw [mutate_ordinary] at done
    obtain ⟨after, mutated, rfl⟩ := exists_of_map_wrap_eq_ok done
    exact .ordinary mutated
  | function base =>
    rw [mutate_function] at done
    obtain ⟨after, mutated, rfl⟩ := exists_of_map_wrap_eq_ok done
    exact .function mutated
  | string inner =>
    rw [mutate_string] at done
    obtain ⟨after, mutated, rfl⟩ := exists_of_map_wrap_eq_ok done
    exact .string mutated
  | array inner =>
    rw [mutate_array] at done
    obtain ⟨after, mutated, rfl⟩ := exists_of_map_wrap_eq_ok done
    exact .array mutated
  | map view =>
    rw [mutate_map] at done
    obtain ⟨after, mutated, rfl⟩ := exists_of_map_wrap_eq_ok done
    exact .map mutated
  | sequence view =>
    rw [mutate_sequence] at done
    obtain ⟨after, mutated, rfl⟩ := exists_of_map_wrap_eq_ok done
    exact .sequence mutated

theorem kind_mutate (done : object.mutate mutation = .ok (verdict, next)) :
    next.kind = object.kind := by
  cases mutates_of_mutate done <;> rfl

theorem prototype_mutate (done : object.mutate mutation = .ok (verdict, next)) :
    next.prototype = object.prototype := by
  cases mutates_of_mutate done with
  | @ordinary inner _ mutated => exact (inner.allOrNothing_mutate mutation).linked mutated
  | @function base _ mutated => exact (base.allOrNothing_mutate mutation).linked mutated
  | @string inner _ mutated => exact (inner.allOrNothing_mutate mutation).linked mutated
  | array mutated => exact (ArrayObject.edits_mutate mutated).prototype
  | @map _ _ view _ mutated => exact (view.allOrNothing_mutate mutation).linked mutated
  | @sequence _ view _ mutated => exact (view.allOrNothing_mutate mutation).linked mutated

/-- Every mutation lets a well-formed object evolve, if a property that it adds was absent. -/
theorem evolves_mutate (wellFormed : object.WellFormed) (suits : mutation.Suits object.getOwn)
    (done : object.mutate mutation = .ok (verdict, next)) : object.Evolves next := by
  refine ⟨kind_mutate done, fun native => ?_⟩
  cases mutates_of_mutate done with
  | ordinary mutated => exact OrdinaryObject.evolves_mutate suits mutated
  | function mutated => exact OrdinaryObject.evolves_mutate suits mutated
  | string mutated => exact StringObject.evolves_mutate suits mutated
  | array mutated => exact (ArrayObject.edits_mutate mutated).evolves wellFormed suits
  | map => exact absurd rfl native
  | sequence => exact absurd rfl native

theorem kind_setPrototype (object : Object) (prototype : Option ObjectId) :
    (object.setPrototype prototype).kind = object.kind := by
  cases object <;> rfl

theorem kind_preventExtensions (object : Object) :
    object.preventExtensions.kind = object.kind := by
  cases object <;> rfl

theorem prototype_setPrototype (object : Object) (prototype : Option ObjectId) :
    (object.setPrototype prototype).prototype = prototype := by
  cases object <;> rfl

theorem prototype_preventExtensions (object : Object) :
    object.preventExtensions.prototype = object.prototype := by
  cases object <;> rfl

theorem evolves_setPrototype (extensible : object.isExtensible = true)
    (prototype : Option ObjectId) : object.Evolves (object.setPrototype prototype) where
  kind := object.kind_setPrototype prototype
  view native := by
    cases object with
    | ordinary inner => exact OrdinaryObject.evolves_setPrototype extensible prototype
    | function base => exact OrdinaryObject.evolves_setPrototype extensible prototype
    | string inner =>
      exact StringObject.evolves_withBase
        (OrdinaryObject.evolves_setPrototype extensible prototype)
    | array inner =>
      exact ArrayObject.evolves_withBase
        (OrdinaryObject.evolves_setPrototype extensible prototype)
    | map view => exact absurd rfl native
    | sequence view => exact absurd rfl native

theorem evolves_preventExtensions (object : Object) :
    object.Evolves object.preventExtensions where
  kind := kind_preventExtensions object
  view native := by
    cases object with
    | ordinary inner => exact inner.evolves_preventExtensions
    | function base => exact base.evolves_preventExtensions
    | string inner =>
      exact StringObject.evolves_withBase inner.base.evolves_preventExtensions
    | array inner => exact ArrayObject.evolves_withBase inner.base.evolves_preventExtensions
    | map view => exact absurd rfl native
    | sequence view => exact absurd rfl native

namespace WellFormed

theorem mutate (wellFormed : object.WellFormed)
    (done : object.mutate mutation = .ok (verdict, next)) : next.WellFormed := by
  cases mutates_of_mutate done with
  | array mutated => exact (ArrayObject.edits_mutate mutated).wellFormed wellFormed
  | _ => trivial

theorem setPrototype (wellFormed : object.WellFormed) (prototype : Option ObjectId) :
    (object.setPrototype prototype).WellFormed := by
  cases object with
  | array inner => exact ArrayObject.WellFormed.withBase wellFormed _
  | _ => trivial

theorem preventExtensions (wellFormed : object.WellFormed) :
    object.preventExtensions.WellFormed := by
  cases object with
  | array inner => exact ArrayObject.WellFormed.withBase wellFormed _
  | _ => trivial

end WellFormed

end Object

end ObjectModel
