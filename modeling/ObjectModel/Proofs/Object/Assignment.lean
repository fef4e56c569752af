import ObjectModel.Proofs.Object.Evolution
import ObjectModel.Proofs.Table.Ordered

/-!
# What an assignment does to own properties

Assigning to a writable own property replaces its value and nothing else.  Assigning to an absent
one adds it between or behind the others, which stay.
-/

namespace ObjectModel

namespace Slot

variable {slot : Slot} {old : Value} {attributes : Attributes}

theorem exists_write? (data : slot.descriptor = .data old attributes)
    (writable : attributes.writable = true) (value : Value) :
    ∃ written, slot.write? value = some written ∧ written.descriptor = .data value attributes := by
  cases slot with
  | bare held =>
    cases data
    exact ⟨.bare value, rfl, rfl⟩
  | described descriptor =>
    cases data
    exact ⟨.described (.data value attributes), if_pos writable, rfl⟩

theorem write?_of_readOnly (data : slot.descriptor = .data old attributes)
    (readOnly : attributes.writable = false) (value : Value) : slot.write? value = none := by
  cases slot with
  | bare held =>
    cases data
    cases readOnly
  | described descriptor =>
    cases data
    apply if_neg
    rw [readOnly]
    exact Bool.false_ne_true

theorem isEnumerable_of_descriptor (data : slot.descriptor = .data old attributes) :
    slot.isEnumerable = attributes.enumerable := by
  rw [isEnumerable, data]
  rfl

end Slot

/-- Whether a refusal says that the property at a key is read-only. -/
def Refusal.IsReadOnly (key : Key) (why : Refusal) : Prop :=
  why = .readOnly key ∨ ∃ owner, why = .readOnlyOf key owner

namespace OwnView

/-- An object before and after its own property at a key got a value. -/
structure Overwritten (before after : OwnView) (key : Key) (value : Value)
    (attributes : Attributes) : Prop where
  property : ∃ slot, after.property key = some slot ∧ slot.descriptor = .data value attributes
  others : ∀ other, other ≠ key → after.property other = before.property other
  keys : after.keys = before.keys
  prototype : after.prototype = before.prototype
  extensible : after.extensible = before.extensible

/-- An object before and after it got a property at a key, all of whose attributes are set.  The key
is put between or, at last, behind the others. -/
structure Extended (before after : OwnView) (key : Key) (value : Value) (kept : Key → Prop)
    (last : Prop) : Prop where
  property : after.property key = some (.bare value)
  others : ∀ other, other ≠ key → kept other → after.property other = before.property other
  keys : ∃ first rest, before.keys = first ++ rest ∧ after.keys = first ++ (key, true) :: rest ∧
    (last → rest = [])
  prototype : after.prototype = before.prototype
  extensible : after.extensible = before.extensible

theorem Extended.weaken {before after : OwnView} {key : Key} {value : Value}
    {kept weaker : Key → Prop} {last weakerLast : Prop}
    (extended : before.Extended after key value kept last)
    (weaken : ∀ other, weaker other → kept other) (weakenLast : weakerLast → last) :
    before.Extended after key value weaker weakerLast where
  property := extended.property
  others other different still := extended.others other different (weaken other still)
  keys := by
    obtain ⟨first, rest, before, after, last⟩ := extended.keys
    exact ⟨first, rest, before, after, fun isLast => last (weakenLast isLast)⟩
  prototype := extended.prototype
  extensible := extended.extensible

end OwnView

namespace OrdinaryObject

variable {object : OrdinaryObject} {key : Key} {slot : Slot} {old : Value}
  {attributes : Attributes}

theorem overwritten_write (found : object.getOwn key = some slot)
    (data : slot.descriptor = .data old attributes) (writable : attributes.writable = true)
    (value : Value) :
    ∃ next, object.write key value = (.accepted, next) ∧
      object.view.Overwritten next.view key value attributes := by
  obtain ⟨written, overwritten, dataAfter⟩ := Slot.exists_write? data writable value
  refine ⟨object.store key written, ?_, ?_⟩
  · simp only [write, found, overwritten]
  · obtain ⟨first, rest, split, replaced⟩ := OrderedMap.exists_split_insert found written
    have sameFlag : written.isEnumerable = slot.isEnumerable := by
      rw [Slot.isEnumerable_of_descriptor dataAfter, Slot.isEnumerable_of_descriptor data]
    exact
      { property := ⟨written, by simp only [view, getOwn_store, if_true], dataAfter⟩
        others := by
          intro other different
          simp only [view, getOwn_store, if_neg different]
        keys := by
          simp only [view, ownKeys, store, split, replaced, List.map_append, List.map_cons,
            sameFlag]
        prototype := rfl
        extensible := rfl }

theorem write_of_readOnly (found : object.getOwn key = some slot)
    (data : slot.descriptor = .data old attributes) (readOnly : attributes.writable = false)
    (value : Value) : object.write key value = (.refused (.readOnly key), object) := by
  simp only [write, found, Slot.write?_of_readOnly data readOnly]

theorem extended_add (absent : object.getOwn key = none) (extensible : object.extensible = true)
    (value : Value) :
    ∃ next, object.add key value = (.accepted, next) ∧
      object.view.Extended next.view key value (fun _ => True) True := by
  refine ⟨object.store key (.bare value), if_pos extensible, ?_⟩
  have appended := OrderedMap.entries_insert_of_absent absent (.bare value)
  exact
    { property := by simp only [view, getOwn_store, if_true]
      others := by
        intro other different _
        simp only [view, getOwn_store, if_neg different]
      keys := by
        refine ⟨object.ownKeys, [], (List.append_nil _).symm, ?_, fun _ => rfl⟩
        simp only [view, ownKeys, store, appended, List.map_append]
        rfl
      prototype := rfl
      extensible := rfl }

theorem add_of_closed (closed : object.extensible = false) (key : Key) (value : Value) :
    object.add key value = (.refused (.notExtensible key), object) := by
  simp only [add, closed, Bool.false_eq_true, if_false]

end OrdinaryObject

namespace StringObject

variable {string : StringObject} {key : Key} {value : Value}

theorem overwritten_withBase (free : string.fixed? key = none) {base : OrdinaryObject}
    {attributes : Attributes}
    (overwritten : string.base.view.Overwritten base.view key value attributes) :
    string.view.Overwritten ({ string with base } : StringObject).view key value attributes where
  property := by
    obtain ⟨slot, found, data⟩ := overwritten.property
    refine ⟨slot, ?_, data⟩
    have free' : ({ string with base } : StringObject).fixed? key = none := free
    simp only [view, getOwn, free', Option.none_or]
    exact found
  others other different := by
    have same : base.getOwn other = string.base.getOwn other := overwritten.others other different
    have fixed : ({ string with base } : StringObject).fixed? other = string.fixed? other := rfl
    simp only [view, getOwn, fixed, same]
  keys := by
    have same : base.ownKeys = string.base.ownKeys := overwritten.keys
    simp only [view, ownKeys, same]
  prototype := overwritten.prototype
  extensible := overwritten.extensible

theorem extended_withBase (free : string.fixed? key = none) {base : OrdinaryObject}
    (extended : string.base.view.Extended base.view key value (fun _ => True) True) :
    string.view.Extended ({ string with base } : StringObject).view key value (fun _ => True)
      True where
  property := by
    have free' : ({ string with base } : StringObject).fixed? key = none := free
    simp only [view, getOwn, free', Option.none_or]
    exact extended.property
  others other different _ := by
    have same : base.getOwn other = string.base.getOwn other :=
      extended.others other different trivial
    have fixed : ({ string with base } : StringObject).fixed? other = string.fixed? other := rfl
    simp only [view, getOwn, fixed, same]
  keys := by
    obtain ⟨first, rest, before, after, last⟩ := extended.keys
    have beforeBase : string.base.ownKeys = first ++ rest := before
    have afterBase : base.ownKeys = first ++ (key, true) :: rest := after
    refine ⟨(List.range string.value.length).map (fun i => (Key.index (UInt32.ofNat i), true)) ++
      (Key.length, false) :: first, rest, ?_, ?_, last⟩
    · simp only [view, ownKeys, beforeBase, List.append_assoc, List.cons_append]
    · simp only [view, ownKeys, afterBase, List.append_assoc, List.cons_append]
  prototype := extended.prototype
  extensible := extended.extensible

theorem isWritable_of_fixed? {slot : Slot} (fixed : string.fixed? key = some slot) :
    slot.isWritable = false := by
  obtain ⟨value, enumerable, rfl⟩ := eq_fixed_of_fixed? fixed
  rfl

section Assigning

variable {slot : Slot} {old : Value} {attributes : Attributes}

theorem free_of_writable (found : string.getOwn key = some slot)
    (data : slot.descriptor = .data old attributes) (writable : attributes.writable = true) :
    string.fixed? key = none ∧ string.base.getOwn key = some slot := by
  cases fixed : string.fixed? key with
  | none =>
    simp only [getOwn, fixed, Option.none_or] at found
    exact ⟨rfl, found⟩
  | some own =>
    simp only [getOwn, fixed, Option.some_or, Option.some.injEq] at found
    have readOnly := isWritable_of_fixed? fixed
    rw [found, Slot.isWritable, data] at readOnly
    have contradiction : attributes.writable = false := readOnly
    rw [writable] at contradiction
    cases contradiction

theorem overwritten_write (found : string.getOwn key = some slot)
    (data : slot.descriptor = .data old attributes) (writable : attributes.writable = true)
    (value : Value) :
    ∃ next, string.write key value = (.accepted, next) ∧
      string.view.Overwritten next.view key value attributes := by
  obtain ⟨free, foundBase⟩ := free_of_writable found data writable
  obtain ⟨base, written, overwritten⟩ :=
    OrdinaryObject.overwritten_write foundBase data writable value
  refine ⟨{ string with base }, ?_, overwritten_withBase free overwritten⟩
  simp only [write, free, Option.isSome_none, Bool.false_eq_true, if_false, written]

theorem write_of_readOnly (found : string.getOwn key = some slot)
    (data : slot.descriptor = .data old attributes) (readOnly : attributes.writable = false)
    (value : Value) :
    ∃ why, why.IsReadOnly key ∧ string.write key value = (.refused why, string) := by
  cases fixed : string.fixed? key with
  | some own =>
    refine ⟨.readOnlyOf key .string, .inr ⟨.string, rfl⟩, ?_⟩
    simp only [write, fixed, Option.isSome_some, if_true]
  | none =>
    simp only [getOwn, fixed, Option.none_or] at found
    refine ⟨.readOnly key, .inl rfl, ?_⟩
    simp only [write, fixed, Option.isSome_none, Bool.false_eq_true, if_false,
      OrdinaryObject.write_of_readOnly found data readOnly value]

theorem extended_add (absent : string.getOwn key = none)
    (extensible : string.base.extensible = true) (value : Value) :
    ∃ next, string.add key value = (.accepted, next) ∧
      string.view.Extended next.view key value (fun _ => True) True := by
  obtain ⟨free, absentBase⟩ := Option.or_eq_none_iff.mp absent
  obtain ⟨base, added, extended⟩ := OrdinaryObject.extended_add absentBase extensible value
  refine ⟨{ string with base }, ?_, extended_withBase free extended⟩
  simp only [add, free, Option.isSome_none, Bool.false_eq_true, if_false, added]

theorem add_of_closed (absent : string.getOwn key = none)
    (closed : string.base.extensible = false) (value : Value) :
    string.add key value = (.refused (.notExtensible key), string) := by
  have free : string.fixed? key = none := (Option.or_eq_none_iff.mp absent).1
  simp only [add, free, Option.isSome_none, Bool.false_eq_true, if_false,
    OrdinaryObject.add_of_closed closed key value]

end Assigning

end StringObject

end ObjectModel
