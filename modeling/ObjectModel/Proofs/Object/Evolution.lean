import ObjectModel.Proofs.Verdict.Object
import ObjectModel.Proofs.Property.Succession

/-!
# What may become of an object

Seen from outside, an object is its own properties and their order, its prototype link and whether
it is extensible.  It evolves when its properties succeed each other, and when it does not become
extensible again, get another prototype or get new properties once it is not extensible.
-/

namespace ObjectModel

/-- An object seen from outside. -/
structure OwnView where
  property : Key → Option Slot
  keys : List (Key × Bool)
  prototype : Option ObjectId
  extensible : Bool

namespace OwnView

/-- What may become of an object, whatever represents it. -/
structure Evolves (before after : OwnView) : Prop where
  properties : ∀ key,
    Slot.Succeeds before.extensible (before.property key) (after.property key)
  closed : before.extensible = false →
    after.extensible = false ∧ after.prototype = before.prototype

namespace Evolves

variable {first second third : OwnView}

theorem refl (view : OwnView) : view.Evolves view where
  properties _ := .refl _ _
  closed inextensible := ⟨inextensible, rfl⟩

theorem trans (before : first.Evolves second) (after : second.Evolves third) :
    first.Evolves third where
  properties key :=
    (before.properties key).trans (after.properties key)
      fun inextensible => (before.closed inextensible).1
  closed inextensible := by
    obtain ⟨between, samePrototype⟩ := before.closed inextensible
    obtain ⟨final, samePrototypeAfter⟩ := after.closed between
    exact ⟨final, samePrototypeAfter.trans samePrototype⟩

theorem of_properties (prototype : second.prototype = first.prototype)
    (extensible : second.extensible = first.extensible)
    (properties : ∀ key,
      Slot.Succeeds first.extensible (first.property key) (second.property key)) :
    first.Evolves second where
  properties := properties
  closed inextensible := ⟨extensible.trans inextensible, prototype⟩

end Evolves

end OwnView

/-- Whether a mutation, if it adds a property, adds one that was absent. -/
def OwnMutation.Suits (property : Key → Option Slot) : OwnMutation → Prop
  | .add key _ => property key = none
  | .write .. | .define .. | .delete _ => True

namespace OrdinaryObject

variable {object next : OrdinaryObject} {verdict : Verdict}

def view (object : OrdinaryObject) : OwnView :=
  ⟨object.getOwn, object.ownKeys, object.prototype, object.extensible⟩

def mutate (object : OrdinaryObject) : OwnMutation → Except Fault (Verdict × OrdinaryObject)
  | .write key value => .ok (object.write key value)
  | .add key value => .ok (object.add key value)
  | .define key request => object.define key request
  | .delete key => .ok (object.delete key)

theorem evolves_store {key : Key} {slot : Slot}
    (succeeds : Slot.Succeeds object.extensible (object.getOwn key) (some slot)) :
    object.view.Evolves (object.store key slot).view := by
  apply OwnView.Evolves.of_properties
  case prototype => rfl
  case extensible => rfl
  case properties =>
    intro wanted
    simp only [view, getOwn_store]
    split
    next here =>
      rw [here]
      exact succeeds
    next => exact .refl _ _

theorem evolves_add {key : Key} (absent : object.getOwn key = none) (value : Value) :
    object.view.Evolves (object.add key value).2.view := by
  unfold add
  split
  next extensible =>
    apply evolves_store
    rw [absent, extensible]
    exact .of_extensible _
  next => exact .refl _

theorem evolves_write (object : OrdinaryObject) (key : Key) (value : Value) :
    object.view.Evolves (object.write key value).2.view := by
  unfold write
  split
  next absent => exact evolves_add absent value
  next slot found =>
    split
    next written overwritten =>
      apply evolves_store
      rw [found]
      exact Slot.succeeds_write? overwritten _
    next => exact .refl _

theorem evolves_define {key : Key} {request : Request}
    (done : object.define key request = .ok (verdict, next)) : object.view.Evolves next.view := by
  obtain ⟨resolution, decided, done⟩ := exists_of_bind_eq_ok done
  cases resolution with
  | stored slot =>
    cases done
    exact evolves_store (succeeds_resolution decided)
  | refused why =>
    cases done
    exact .refl _

theorem evolves_delete (object : OrdinaryObject) (key : Key) :
    object.view.Evolves (object.delete key).2.view := by
  unfold delete
  split
  next => exact .refl _
  next slot found =>
    split
    next configurable =>
      apply OwnView.Evolves.of_properties
      case prototype => rfl
      case extensible => rfl
      case properties =>
        intro wanted
        simp only [view, getOwn, OrderedMap.get?_erase]
        split
        next here =>
          have held : object.properties.get? wanted = some slot := here ▸ found
          rw [held]
          exact .of_isConfigurable configurable _
        next => exact .refl _ _
    next => exact .refl _

theorem evolves_mutate {mutation : OwnMutation} (suits : mutation.Suits object.getOwn)
    (done : object.mutate mutation = .ok (verdict, next)) : object.view.Evolves next.view := by
  cases mutation with
  | write key value =>
    have evolves := object.evolves_write key value
    rw [Except.ok.inj done] at evolves
    exact evolves
  | add key value =>
    have evolves := evolves_add suits value
    rw [Except.ok.inj done] at evolves
    exact evolves
  | define key request => exact evolves_define done
  | delete key =>
    have evolves := object.evolves_delete key
    rw [Except.ok.inj done] at evolves
    exact evolves

theorem evolves_setPrototype (extensible : object.extensible = true)
    (prototype : Option ObjectId) : object.view.Evolves (object.setPrototype prototype).view where
  properties key := .refl _ _
  closed inextensible := by
    have contradiction : object.extensible = false := inextensible
    rw [extensible] at contradiction
    cases contradiction

theorem evolves_preventExtensions (object : OrdinaryObject) :
    object.view.Evolves object.preventExtensions.view where
  properties _ := .refl _ _
  closed _ := ⟨rfl, rfl⟩

end OrdinaryObject

namespace StringObject

variable {string next : StringObject} {verdict : Verdict}

def view (string : StringObject) : OwnView :=
  ⟨string.getOwn, string.ownKeys, string.base.prototype, string.base.extensible⟩

def mutate (string : StringObject) : OwnMutation → Except Fault (Verdict × StringObject)
  | .write key value => .ok (string.write key value)
  | .add key value => .ok (string.add key value)
  | .define key request => string.define key request
  | .delete key => .ok (string.delete key)

/-- The properties of the text can neither be changed nor deleted. -/
theorem eq_fixed_of_fixed? {string : StringObject} {key : Key} {slot : Slot}
    (fixed : string.fixed? key = some slot) :
    ∃ value enumerable, slot = .fixed value enumerable := by
  cases key with
  | index i =>
    obtain ⟨unit, _, rfl⟩ := Option.map_eq_some_iff.mp fixed
    exact ⟨_, _, rfl⟩
  | named text =>
    simp only [fixed?] at fixed
    split at fixed <;> cases fixed
    exact ⟨_, _, rfl⟩

theorem evolves_withBase {base : OrdinaryObject} (evolves : string.base.view.Evolves base.view) :
    string.view.Evolves ({ string with base } : StringObject).view where
  properties key := by
    have fixed : ({ string with base } : StringObject).fixed? key = string.fixed? key := rfl
    simp only [view, getOwn, fixed]
    cases string.fixed? key with
    | none => exact evolves.properties key
    | some slot => exact .refl _ _
  closed := evolves.closed

theorem evolves_write (string : StringObject) (key : Key) (value : Value) :
    string.view.Evolves (string.write key value).2.view := by
  unfold write
  split
  next => exact .refl _
  next => exact evolves_withBase (string.base.evolves_write key value)

theorem evolves_add {key : Key} (absent : string.getOwn key = none) (value : Value) :
    string.view.Evolves (string.add key value).2.view := by
  have baseAbsent : string.base.getOwn key = none := (Option.or_eq_none_iff.mp absent).2
  unfold add
  split
  next => exact .refl _
  next => exact evolves_withBase (OrdinaryObject.evolves_add baseAbsent value)

theorem evolves_define {key : Key} {request : Request}
    (done : string.define key request = .ok (verdict, next)) : string.view.Evolves next.view := by
  unfold define at done
  split at done
  next slot _ =>
    obtain ⟨resolution, _, done⟩ := exists_of_bind_eq_ok done
    cases resolution <;> cases done <;> exact .refl _
  next =>
    obtain ⟨result, defined, done⟩ := exists_of_bind_eq_ok done
    cases done
    exact evolves_withBase (OrdinaryObject.evolves_define defined)

theorem evolves_delete (string : StringObject) (key : Key) :
    string.view.Evolves (string.delete key).2.view := by
  unfold delete
  split
  next => exact .refl _
  next => exact evolves_withBase (string.base.evolves_delete key)

theorem evolves_mutate {mutation : OwnMutation} (suits : mutation.Suits string.getOwn)
    (done : string.mutate mutation = .ok (verdict, next)) : string.view.Evolves next.view := by
  cases mutation with
  | write key value =>
    have evolves := string.evolves_write key value
    rw [Except.ok.inj done] at evolves
    exact evolves
  | add key value =>
    have evolves := evolves_add suits value
    rw [Except.ok.inj done] at evolves
    exact evolves
  | define key request => exact evolves_define done
  | delete key =>
    have evolves := string.evolves_delete key
    rw [Except.ok.inj done] at evolves
    exact evolves

end StringObject

end ObjectModel
