import ObjectModel.Proofs.Host.Definition
import ObjectModel.Proofs.Host.Map
import ObjectModel.Proofs.Object.Listing

/-!
# Properties that are filled with values

To write a value takes no property away and makes none an accessor, neither on the object that it is
written to nor on the other views on its collection.
-/

namespace ObjectModel

/-- Whether a property is as it was, or is a value now. -/
inductive Slot.Filled (before : Option Slot) : Option Slot → Prop
  | kept : Filled before before
  | value {slot : Slot} (isValue : slot.descriptor.isAccessor = false) : Filled before (some slot)

namespace Slot.Filled

variable {before after : Option Slot}

theorem eq_none (filled : Filled before none) : before = none := by
  cases filled
  rfl

theorem eq_of_isAccessor {slot : Slot} (filled : Filled before (some slot))
    (isAccessor : slot.descriptor.isAccessor = true) : before = some slot := by
  cases filled with
  | kept => rfl
  | value isValue => cases isAccessor.symm.trans isValue

theorem of_map_bare {α β : Type} {old : Option α} {new : Option β} {valueOf : α → Value}
    {valueOfNew : β → Value} (gone : new = none → old = none) :
    Filled (old.map fun element => .bare (valueOf element))
      (new.map fun element => .bare (valueOfNew element)) := by
  cases new with
  | some element => exact .value rfl
  | none =>
    rw [gone rfl]
    exact .kept

end Slot.Filled

theorem Slot.isWritable_of_data {slot : Slot} {value : Value} {attributes : Attributes}
    (data : slot.descriptor = .data value attributes) :
    slot.isWritable = attributes.writable := by
  rw [isWritable, data]
  rfl

theorem Slot.exists_data {slot : Slot} (isValue : slot.descriptor.isAccessor = false) :
    ∃ value attributes, slot.descriptor = .data value attributes := by
  cases descriptor : slot.descriptor with
  | data value attributes => exact ⟨value, attributes, rfl⟩
  | accessor =>
    rw [descriptor] at isValue
    cases isValue

theorem Slot.isAccessor_of_write? {slot written : Slot} {value : Value}
    (overwritten : slot.write? value = some written) : written.descriptor.isAccessor = false := by
  cases slot with
  | bare old =>
    cases overwritten
    rfl
  | described descriptor =>
    cases descriptor with
    | data old attributes =>
      obtain ⟨_, same⟩ := Option.ite_none_right_eq_some.mp overwritten
      cases same
      rfl
    | accessor => cases overwritten

namespace OrdinaryObject

variable {object next : OrdinaryObject} {key : Key} {value : Value} {verdict : Verdict}

theorem filled_store (object : OrdinaryObject) (key : Key) {slot : Slot}
    (isValue : slot.descriptor.isAccessor = false) (other : Key) :
    Slot.Filled (object.getOwn other) ((object.store key slot).getOwn other) := by
  rw [getOwn_store]
  split
  next => exact .value isValue
  next => exact .kept

theorem filled_write (done : object.mutate (.write key value) = .ok (verdict, next))
    (other : Key) : Slot.Filled (object.getOwn other) (next.getOwn other) := by
  obtain rfl : (object.write key value).2 = next := congrArg Prod.snd (Except.ok.inj done)
  unfold write
  split
  next =>
    unfold add
    split
    next => exact object.filled_store key rfl other
    next => exact .kept
  next slot found =>
    split
    next written overwritten =>
      exact object.filled_store key (Slot.isAccessor_of_write? overwritten) other
    next => exact .kept

end OrdinaryObject

theorem Rebases.filled {key : Key} {value : Value} {reserved : Key → Bool}
    {base next : OrdinaryObject} (rebases : Rebases (.write key value) reserved base next)
    (other : Key) : Slot.Filled (base.getOwn other) (next.getOwn other) := by
  cases rebases with
  | same => exact .kept
  | mutated _ done => exact OrdinaryObject.filled_write done other

/-- Whether a collection goes on as one of its type and has lost no keys. -/
inductive Collection.Grows : Collection → Collection → Prop
  | map {keyType : KeyType} {elementType : ElementType}
      {entries next : OrderedMap keyType.Carrier elementType.Carrier}
      (gone : ∀ hostKey, next.get? hostKey = none → entries.get? hostKey = none) :
      Grows (.map entries) (.map next)
  | sequence {elementType : ElementType} {items next : List elementType.Carrier}
      (length : items.length ≤ next.length) : Grows (.sequence items) (.sequence next)

theorem Collection.Grows.refl (collection : Collection) : collection.Grows collection := by
  cases collection with
  | map entries => exact .map fun _ => id
  | sequence items => exact .sequence (Nat.le_refl _)

namespace HostMap

variable {keyType : KeyType} {elementType : ElementType} {view next : HostMap keyType elementType}
  {hostKey : keyType.Carrier} {verdict : Verdict} {key : Key} {value : Value}

theorem grows_store (done : view.store hostKey value = .ok (verdict, next)) :
    next.growable = view.growable ∧ (Collection.map view.entries).Grows (.map next.entries) := by
  obtain ⟨element, _, stored⟩ := exists_of_bind_eq_ok done
  cases stored
  refine ⟨rfl, .map fun other gone => ?_⟩
  rw [OrderedMap.get?_insert] at gone
  split at gone
  next => cases gone
  next => exact gone

theorem grows_write (done : view.write key value = .ok (verdict, next)) :
    next.growable = view.growable ∧ (Collection.map view.entries).Grows (.map next.entries) := by
  unfold write at done
  split at done
  next =>
    split at done
    next => exact grows_store done
    next =>
      cases done
      exact ⟨rfl, .refl _⟩
  next =>
    cases done
    exact ⟨rfl, .refl _⟩

end HostMap

namespace HostSequence

variable {elementType : ElementType} {view next : HostSequence elementType} {verdict : Verdict}
  {key : Key} {value : Value}

theorem grows_store {index : Nat} (done : view.store index value = .ok (verdict, next)) :
    next.resizable = view.resizable ∧
      (Collection.sequence view.items).Grows (.sequence next.items) := by
  obtain ⟨item, _, stored⟩ := exists_of_bind_eq_ok done
  split at stored
  next =>
    cases stored
    exact ⟨rfl, .sequence (Nat.le_of_eq List.length_set.symm)⟩
  next beyond =>
    split at stored
    next =>
      cases stored
      refine ⟨rfl, .sequence ?_⟩
      rw [List.length_append, length_fit]
      omega
    next =>
      cases stored
      exact ⟨rfl, .refl _⟩

theorem grows_write (notLength : key.isLength = false)
    (done : view.write key value = .ok (verdict, next)) :
    next.resizable = view.resizable ∧
      (Collection.sequence view.items).Grows (.sequence next.items) := by
  cases key with
  | index i => exact grows_store done
  | named text =>
    simp only [write, notLength] at done
    cases done
    exact ⟨rfl, .refl _⟩

end HostSequence

namespace Object

variable {object next : Object} {verdict : Verdict} {key : Key} {value : Value}

theorem filled_map {keyType : KeyType} {elementType : ElementType}
    {view next : HostMap keyType elementType}
    (grows : (Collection.map view.entries).Grows (.map next.entries))
    (base : ∀ key, Slot.Filled (view.base.getOwn key) (next.base.getOwn key)) (key : Key) :
    Slot.Filled ((Object.map view).getOwn key) ((Object.map next).getOwn key) := by
  cases grows with
  | map gone =>
    simp only [getOwn, HostMap.getOwn]
    cases keyType.ofKey? key with
    | some hostKey => exact .of_map_bare (gone hostKey)
    | none => exact base key

theorem filled_sequence {elementType : ElementType} {view next : HostSequence elementType}
    (grows : (Collection.sequence view.items).Grows (.sequence next.items))
    (base : ∀ key, Slot.Filled (view.base.getOwn key) (next.base.getOwn key)) (key : Key) :
    Slot.Filled ((Object.sequence view).getOwn key) ((Object.sequence next).getOwn key) := by
  cases grows with
  | sequence length =>
    cases key with
    | index i =>
      refine .of_map_bare fun gone => ?_
      rw [List.getElem?_eq_none_iff] at gone ⊢
      exact Nat.le_trans length gone
    | named text =>
      simp only [getOwn, HostSequence.getOwn]
      split
      next => exact .value rfl
      next => exact base (.named text)

theorem filled_write (notArray : object.kind ≠ .array) (notLength : key.isLength = false)
    (done : object.mutate (.write key value) = .ok (verdict, next)) (other : Key) :
    Slot.Filled (object.getOwn other) (next.getOwn other) := by
  cases mutates_of_mutate done with
  | ordinary mutated => exact OrdinaryObject.filled_write mutated other
  | function mutated => exact OrdinaryObject.filled_write mutated other
  | array => exact absurd rfl notArray
  | @string inner after mutated =>
    obtain ⟨sameText, rebases⟩ := StringObject.rebases_mutate mutated
    obtain ⟨text, base⟩ := after
    cases sameText
    simp only [getOwn, StringObject.getOwn]
    change Slot.Filled ((inner.fixed? other).or _) ((inner.fixed? other).or _)
    cases inner.fixed? other with
    | some slot => exact .kept
    | none => exact rebases.filled other
  | map mutated =>
    exact filled_map (HostMap.grows_write mutated).2
      (HostMap.rebases_unless_denotes mutated).filled other
  | sequence mutated =>
    exact filled_sequence (HostSequence.grows_write notLength mutated).2
      (HostSequence.rebases_named mutated).filled other

end Object

end ObjectModel
