import ObjectModel.Proofs.Array.Frame

/-!
# What a change at one key leaves alone

Whatever represents an object that is no view on a host collection, a mutation at one key leaves the
properties at all other keys, and the order in which they are listed.  Only the length of an array
depends on what is done elsewhere, and the elements of an array on its length.  A deletion is
accepted if the property is absent or configurable, and only then, and leaves no property.
-/

namespace ObjectModel

/-- What becomes of a property that is to be deleted. -/
structure Slot.Deletion (before : Option Slot) (verdict : Verdict) (after : Option Slot) :
    Prop where
  accepted : verdict = .accepted ↔ before.all Slot.isConfigurable = true
  absent : verdict = .accepted → after = none

theorem Slot.Deletion.refused {slot : Slot} {why : Refusal} (fixed : ¬slot.isConfigurable = true)
    (after : Option Slot) : Slot.Deletion (some slot) (.refused why) after where
  accepted := iff_of_false nofun fixed
  absent := nofun

namespace OrdinaryObject

theorem deletion (object : OrdinaryObject) (key : Key) :
    Slot.Deletion (object.getOwn key) (object.delete key).1 ((object.delete key).2.getOwn key) := by
  unfold delete
  split
  next absent =>
    rw [absent]
    exact ⟨iff_of_true rfl rfl, fun _ => rfl⟩
  next slot found =>
    rw [found]
    split
    next configurable =>
      refine ⟨iff_of_true rfl configurable, fun _ => ?_⟩
      exact (OrderedMap.get?_erase object.properties key key).trans (if_pos rfl)
    next fixed => exact .refused fixed _

end OrdinaryObject

namespace StringObject

theorem isConfigurable_of_fixed? {string : StringObject} {key : Key} {slot : Slot}
    (fixed : string.fixed? key = some slot) : slot.isConfigurable = false := by
  obtain ⟨value, enumerable, rfl⟩ := eq_fixed_of_fixed? fixed
  rfl

theorem deletion (string : StringObject) (key : Key) :
    Slot.Deletion (string.getOwn key) (string.delete key).1 ((string.delete key).2.getOwn key) := by
  unfold delete getOwn
  cases fixed : string.fixed? key with
  | some slot =>
    refine .refused ?_ _
    rw [isConfigurable_of_fixed? fixed]
    exact Bool.false_ne_true
  | none =>
    have sameFixed : fixed? { string with base := (string.base.delete key).2 } key = none := fixed
    simp only [Option.isSome_none, Bool.false_eq_true, if_false, sameFixed, Option.none_or]
    exact string.base.deletion key

end StringObject

namespace ArrayObject

theorem deletion (array : ArrayObject) (key : Key) :
    Slot.Deletion (array.getOwn key) (array.delete key).1 ((array.delete key).2.getOwn key) := by
  cases key with
  | index i =>
    have found : array.getOwn (.index i) = array.element? i.toNat := rfl
    rw [found]
    simp only [delete]
    split
    next absent =>
      rw [absent]
      exact ⟨iff_of_true rfl rfl, fun _ => absent⟩
    next slot present =>
      rw [present]
      split
      next configurable =>
        refine ⟨iff_of_true rfl configurable, fun _ => ?_⟩
        rw [getOwn_index, reference, Elements.toSparse_clear, AscendingMap.get?_erase, if_pos rfl]
      next fixed => exact .refused fixed _
  | named text =>
    simp only [delete, getOwn]
    split
    next =>
      have fixed : ¬array.lengthSlot.isConfigurable = true := Bool.false_ne_true
      exact .refused fixed _
    next => exact array.base.deletion (.named text)

end ArrayObject

namespace Object

variable {object next : Object} {key : Key} {stored : Prop} {verdict : Verdict}

theorem deletion (native : object.kind ≠ .host) (key : Key) :
    Slot.Deletion (object.getOwn key) (object.delete key).1 ((object.delete key).2.getOwn key) := by
  cases object with
  | ordinary inner => exact inner.deletion key
  | function base => exact base.deletion key
  | string inner => exact inner.deletion key
  | array inner => exact inner.deletion key
  | map view => exact absurd rfl native
  | sequence view => exact absurd rfl native

/-- What a change at one key leaves of an object.

The properties at all other keys are kept and listed in the order in which they were, but those of
an array as far as its length allows. -/
inductive Frames (key : Key) (stored : Prop) : Object → Object → Prop
  | array {array next : ArrayObject} (frames : array.Frames key stored next) :
      Frames key stored (.array array) (.array next)
  | other {object next : Object} (notArray : object.kind ≠ .array) (kind : next.kind = object.kind)
      (frames : object.view.Frames key next.view) : Frames key stored object next

theorem Frames.kind (frames : object.Frames key stored next) : next.kind = object.kind := by
  cases frames with
  | array => rfl
  | other _ kind => exact kind

theorem Sound.unindexed_array {array : ArrayObject} (sound : (Object.array array).Sound) :
    ∀ entry ∈ array.base.ownKeys, entry.1.isIndex = false := by
  intro entry member
  obtain ⟨property, memberProperty, rfl⟩ := List.mem_map.mp member
  have further : property.1 ∈ (Object.array array).furtherKeys := List.mem_map_of_mem memberProperty
  refine Bool.eq_false_iff.mpr fun isIndex => ?_
  have unreserved := sound.unindexed _ further isIndex
  cases about : property.1 with
  | index i =>
    rw [about] at unreserved
    cases unreserved
  | named text =>
    rw [about] at isIndex
    cases isIndex

theorem Sound.frames_mutate (sound : object.Sound) (native : object.kind ≠ .host)
    {mutation : OwnMutation} (done : object.mutate mutation = .ok (verdict, next)) :
    object.Frames mutation.key (mutation.stores = true ∧ verdict = .accepted) next := by
  cases mutates_of_mutate done with
  | array mutated =>
    exact .array (ArrayObject.frames_mutate sound.wellFormed sound.unindexed_array mutated)
  | ordinary mutated => exact .other nofun rfl (OrdinaryObject.frames_mutate mutated)
  | function mutated => exact .other nofun rfl (OrdinaryObject.frames_mutate mutated)
  | @string inner after mutated =>
    obtain ⟨sameText, rebases⟩ := StringObject.rebases_mutate mutated
    obtain ⟨value, base⟩ := after
    cases sameText
    exact .other nofun rfl (StringObject.frames_withBase rebases.frames)
  | map => exact absurd rfl native
  | sequence => exact absurd rfl native

theorem Sound.frames_setPrototype (sound : object.Sound) (native : object.kind ≠ .host)
    (unstored : ∀ i, key = .index i → ¬stored) (prototype : Option ObjectId) :
    object.Frames key stored (object.setPrototype prototype) := by
  have base (inner : OrdinaryObject) : inner.view.Frames key (inner.setPrototype prototype).view :=
    OrdinaryObject.frames_of_entries rfl
  cases object with
  | ordinary inner => exact .other nofun rfl (base inner)
  | function inner => exact .other nofun rfl (base inner)
  | string inner => exact .other nofun rfl (StringObject.frames_withBase (base inner.base))
  | array inner =>
    exact .array
      (ArrayObject.frames_withBase (base inner.base) sound.wellFormed sound.unindexed_array
        unstored)
  | map view => exact absurd rfl native
  | sequence view => exact absurd rfl native

theorem Sound.frames_refl (sound : object.Sound) (native : object.kind ≠ .host)
    (unstored : ∀ i, key = .index i → ¬stored) : object.Frames key stored object := by
  have same : object.setPrototype object.prototype = object := by cases object <;> rfl
  have frames := sound.frames_setPrototype native unstored object.prototype
  rwa [same] at frames

theorem Sound.not_mem_ownKeys (sound : object.Sound) (native : object.kind ≠ .host)
    (absent : object.getOwn key = none) : key ∉ object.ownKeys.map Prod.fst := by
  have notMap : object.isMap = false := by
    cases object
    case map => exact absurd rfl native
    all_goals rfl
  have unlisted := sound.lookup_ownKeys notMap key
  rw [absent, Option.map_none, List.lookup_eq_none_iff] at unlisted
  intro member
  obtain ⟨entry, memberEntry, rfl⟩ := List.mem_map.mp member
  have apart := unlisted entry memberEntry
  simp at apart

end Object

end ObjectModel
