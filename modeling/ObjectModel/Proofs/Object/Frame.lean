import ObjectModel.Proofs.Object.Rekeying

/-!
# What a mutation leaves alone

A mutation of an ordinary object at one key leaves the properties at all other keys as they are, and
lists them in the order in which they were.  What keeps its further properties in an ordinary object
has that from it.
-/

namespace ObjectModel

namespace OrderedMap

variable {κ ν : Type} [DecidableEq κ]

theorem filter_entries_insert (map : OrderedMap κ ν) (key : κ) (value : ν) :
    ((map.insert key value).entries.filter fun entry => entry.1 ≠ key) =
      map.entries.filter fun entry => entry.1 ≠ key := by
  cases found : map.get? key with
  | none => simp [entries_insert_of_absent found]
  | some old =>
    obtain ⟨first, rest, split, replaced⟩ := exists_split_insert found value
    simp [split, replaced]

theorem filter_entries_erase (map : OrderedMap κ ν) (key : κ) :
    ((map.erase key).entries.filter fun entry => entry.1 ≠ key) =
      map.entries.filter fun entry => entry.1 ≠ key := by
  simp only [erase, List.filter_filter, Bool.and_self]

end OrderedMap

/-- Whether all that is found and listed at other keys than one is found and listed as before. -/
structure OwnView.Frames (key : Key) (before after : OwnView) : Prop where
  property : ∀ other, other ≠ key → after.property other = before.property other
  order : (after.keys.filter fun entry => entry.1 ≠ key) =
    before.keys.filter fun entry => entry.1 ≠ key

theorem OwnView.Frames.refl (key : Key) (view : OwnView) : view.Frames key view where
  property _ _ := rfl
  order := rfl

namespace OrdinaryObject

variable {object next : OrdinaryObject} {mutation : OwnMutation} {verdict : Verdict}

theorem frames_of_entries {key : Key}
    (entries : (next.properties.entries.filter fun entry => entry.1 ≠ key) =
      object.properties.entries.filter fun entry => entry.1 ≠ key) :
    object.view.Frames key next.view where
  property other different := by
    have erased :
        (next.properties.erase key).get? other = (object.properties.erase key).get? other :=
      congrArg (OrderedMap.find? other) entries
    rwa [OrderedMap.get?_erase, OrderedMap.get?_erase, if_neg different, if_neg different] at erased
  order := by
    simp only [view, ownKeys, List.filter_map]
    exact congrArg (List.map _) entries

theorem frames_store (object : OrdinaryObject) (key : Key) (slot : Slot) :
    object.view.Frames key (object.store key slot).view :=
  frames_of_entries (object.properties.filter_entries_insert key slot)

theorem frames_add (object : OrdinaryObject) (key : Key) (value : Value) :
    object.view.Frames key (object.add key value).2.view := by
  unfold add
  split
  next => exact object.frames_store key _
  next => exact .refl key _

theorem frames_write (object : OrdinaryObject) (key : Key) (value : Value) :
    object.view.Frames key (object.write key value).2.view := by
  unfold write
  split
  next => exact object.frames_add key value
  next =>
    split
    next => exact object.frames_store key _
    next => exact .refl key _

theorem frames_define {key : Key} {request : Request}
    (done : object.define key request = .ok (verdict, next)) :
    object.view.Frames key next.view := by
  obtain ⟨resolution, _, done⟩ := exists_of_bind_eq_ok done
  cases resolution with
  | stored slot =>
    cases done
    exact object.frames_store key slot
  | refused why =>
    cases done
    exact .refl key _

theorem frames_delete (object : OrdinaryObject) (key : Key) :
    object.view.Frames key (object.delete key).2.view := by
  unfold delete
  split
  next => exact .refl key _
  next =>
    split
    next => exact frames_of_entries (object.properties.filter_entries_erase key)
    next => exact .refl key _

theorem frames_mutate (done : object.mutate mutation = .ok (verdict, next)) :
    object.view.Frames mutation.key next.view := by
  cases mutation with
  | write key value =>
    have frames := object.frames_write key value
    rwa [Except.ok.inj done] at frames
  | add key value =>
    have frames := object.frames_add key value
    rwa [Except.ok.inj done] at frames
  | define key request => exact frames_define done
  | delete key =>
    have frames := object.frames_delete key
    rwa [Except.ok.inj done] at frames

end OrdinaryObject

theorem Rebases.frames {mutation : OwnMutation} {reserved : Key → Bool}
    {base next : OrdinaryObject} (rebases : Rebases mutation reserved base next) :
    base.view.Frames mutation.key next.view := by
  cases rebases with
  | same => exact .refl _ _
  | mutated _ done => exact OrdinaryObject.frames_mutate done

theorem StringObject.frames_withBase {string : StringObject} {base : OrdinaryObject} {key : Key}
    (frames : string.base.view.Frames key base.view) :
    (Object.string string).view.Frames key (Object.string { string with base }).view where
  property other different := by
    have same : base.getOwn other = string.base.getOwn other := frames.property other different
    exact congrArg (string.fixed? other).or same
  order := by
    have order : (base.ownKeys.filter fun entry => entry.1 ≠ key) =
      string.base.ownKeys.filter fun entry => entry.1 ≠ key := frames.order
    simp only [Object.view, Object.ownKeys, ownKeys, List.filter_append, List.filter_cons, order]

end ObjectModel
