import ObjectModel.Proofs.Array.Evolution
import ObjectModel.Proofs.Object.Assignment

/-!
# What an assignment does to an array

An element that is overwritten keeps its place and its attributes.  A new element is put between the
others, and the length may grow to cover it.
-/

namespace ObjectModel

namespace ArrayObject

variable {array : ArrayObject} {key : Key} {value : Value}

theorem overwritten_withBase {text : Text} (other : Key.isLength (.named text) = false)
    {base : OrdinaryObject} {attributes : Attributes}
    (overwritten : array.base.view.Overwritten base.view (.named text) value attributes) :
    array.view.Overwritten ({ array with base } : ArrayObject).view (.named text) value
      attributes where
  property := by
    obtain ⟨slot, found, data⟩ := overwritten.property
    refine ⟨slot, ?_, data⟩
    simp only [view, getOwn, other, Bool.false_eq_true, if_false]
    exact found
  others wanted different := by
    have same : base.getOwn wanted = array.base.getOwn wanted :=
      overwritten.others wanted different
    cases wanted with
    | index i => rfl
    | named name =>
      simp only [view, getOwn, same]
      rfl
  keys := by
    have same : base.ownKeys = array.base.ownKeys := overwritten.keys
    simp only [view, ownKeys, same]
  prototype := overwritten.prototype
  extensible := overwritten.extensible

theorem extended_withBase {text : Text} (other : Key.isLength (.named text) = false)
    {base : OrdinaryObject}
    (extended : array.base.view.Extended base.view (.named text) value (fun _ => True) True) :
    array.view.Extended ({ array with base } : ArrayObject).view (.named text) value
      (fun _ => True) True where
  property := by
    simp only [view, getOwn, other, Bool.false_eq_true, if_false]
    exact extended.property
  others wanted different _ := by
    have same : base.getOwn wanted = array.base.getOwn wanted :=
      extended.others wanted different trivial
    cases wanted with
    | index i => rfl
    | named name =>
      simp only [view, getOwn, same]
      rfl
  keys := by
    obtain ⟨first, rest, before, after, last⟩ := extended.keys
    have beforeBase : array.base.ownKeys = first ++ rest := before
    have afterBase : base.ownKeys = first ++ (.named text, true) :: rest := after
    refine ⟨array.elements.entries.map (fun entry =>
      (Key.index (UInt32.ofNat entry.1), entry.2.isEnumerable)) ++ (Key.length, false) :: first,
      rest, ?_, ?_, last⟩
    · simp only [view, ownKeys, beforeBase, List.append_assoc, List.cons_append]
    · simp only [view, ownKeys, afterBase, List.append_assoc, List.cons_append]
  prototype := extended.prototype
  extensible := extended.extensible

theorem overwritten_modify {i : UInt32} {slot written : Slot} {attributes : Attributes}
    (found : array.element? i.toNat = some slot)
    (sameFlag : written.isEnumerable = slot.isEnumerable)
    (data : written.descriptor = .data value attributes) :
    array.view.Overwritten
      ({ array with elements := array.elements.modify i.toNat written } : ArrayObject).view
      (.index i) value attributes := by
  have present : (array.elements.get? i.toNat).isSome := Option.isSome_of_eq_some found
  have stored : array.elements.toSparse.get? i.toNat = some slot := by
    rw [Elements.get?_toSparse]
    exact found
  obtain ⟨first, rest, split, replaced⟩ :=
    array.elements.toSparse.exists_split_insert i.toNat written
  rw [stored, Elements.entries_toSparse] at split
  rw [← Elements.toSparse_modify present, Elements.entries_toSparse] at replaced
  exact
    { property := by
        refine ⟨written, ?_, data⟩
        simp only [view, getOwn, element?, Elements.get?_modify present, if_true]
      others := by
        intro other different
        cases other with
        | index j =>
          have apart : ¬j.toNat = i.toNat := by
            intro same
            exact different (congrArg Key.index (UInt32.toNat_inj.mp same))
          simp only [view, getOwn, element?, Elements.get?_modify present, if_neg apart]
        | named text => rfl
      keys := by
        simp only [view, ownKeys, split, replaced, List.map_append, List.map_cons,
          Option.map_some, Option.toList_some, List.cons_append, List.nil_append, sameFlag]
      prototype := rfl
      extensible := rfl }

theorem extended_store {i : UInt32} (absent : array.element? i.toNat = none) (length : Nat)
    (value : Value) :
    array.view.Extended
      (({ array with length } : ArrayObject).store i.toNat (.bare value)).view (.index i) value
      (fun other => length = array.length ∨ other.isLength = false) False := by
  have missing : array.elements.toSparse.get? i.toNat = none := by
    rw [Elements.get?_toSparse]
    exact absent
  obtain ⟨first, rest, split, replaced⟩ :=
    array.elements.toSparse.exists_split_insert i.toNat (.bare value)
  rw [missing, Elements.entries_toSparse] at split
  have stored := toSparse_store { array with length } i.toNat (.bare value)
  rw [← stored, Elements.entries_toSparse] at replaced
  exact
    { property := by
        simp only [view, getOwn, element?_store, if_true]
      others := by
        intro other different kept
        cases other with
        | index j =>
          have apart : ¬j.toNat = i.toNat := by
            intro same
            exact different (congrArg Key.index (UInt32.toNat_inj.mp same))
          simp only [view, getOwn, element?_store, if_neg apart]
          rfl
        | named text =>
          simp only [view, getOwn]
          split
          next isLength =>
            rcases kept with same | notLength
            · rw [same]
              rfl
            · rw [isLength] at notLength
              cases notLength
          next => rfl
      keys := by
        refine ⟨first.map (fun entry =>
          (Key.index (UInt32.ofNat entry.1), entry.2.isEnumerable)),
          rest.map (fun entry => (Key.index (UInt32.ofNat entry.1), entry.2.isEnumerable)) ++
            (Key.length, false) :: array.base.ownKeys, ?_, ?_, False.elim⟩
        · simp only [view, ownKeys, split, List.map_append, Option.map_none, Option.toList_none,
            List.nil_append, List.append_assoc]
        · simp only [view, ownKeys, replaced, List.map_append, List.map_cons, List.append_assoc,
            List.cons_append, UInt32.ofNat_toNat]
          rfl
      prototype := rfl
      extensible := rfl }

section Assigning

variable {slot : Slot} {old : Value} {attributes : Attributes}

theorem overwritten_write (notLength : key.isLength = false)
    (found : array.getOwn key = some slot) (data : slot.descriptor = .data old attributes)
    (writable : attributes.writable = true) (value : Value) :
    ∃ next, array.write key value = .ok (.accepted, next) ∧
      array.view.Overwritten next.view key value attributes := by
  cases key with
  | index i =>
    have held : array.element? i.toNat = some slot := found
    obtain ⟨written, overwritten, dataAfter⟩ := Slot.exists_write? data writable value
    have sameFlag : written.isEnumerable = slot.isEnumerable := by
      rw [Slot.isEnumerable_of_descriptor dataAfter, Slot.isEnumerable_of_descriptor data]
    refine ⟨{ array with elements := array.elements.modify i.toNat written }, ?_,
      overwritten_modify held sameFlag dataAfter⟩
    simp only [write, held, overwritten]
  | named text =>
    simp only [getOwn, notLength, Bool.false_eq_true, if_false] at found
    obtain ⟨base, written, overwritten⟩ :=
      OrdinaryObject.overwritten_write found data writable value
    refine ⟨{ array with base }, ?_, overwritten_withBase notLength overwritten⟩
    simp only [write, notLength, Bool.false_eq_true, if_false, written]

theorem write_of_readOnly (notLength : key.isLength = false)
    (found : array.getOwn key = some slot) (data : slot.descriptor = .data old attributes)
    (readOnly : attributes.writable = false) (value : Value) :
    ∃ why, why.IsReadOnly key ∧ array.write key value = .ok (.refused why, array) := by
  cases key with
  | index i =>
    have held : array.element? i.toNat = some slot := found
    refine ⟨.readOnlyOf (.index i) .array, .inr ⟨.array, rfl⟩, ?_⟩
    simp only [write, held, Slot.write?_of_readOnly data readOnly value]
  | named text =>
    simp only [getOwn, notLength, Bool.false_eq_true, if_false] at found
    refine ⟨.readOnly (.named text), .inl rfl, ?_⟩
    simp only [write, notLength, Bool.false_eq_true, if_false,
      OrdinaryObject.write_of_readOnly found data readOnly value]

theorem add_of_closed (closed : array.base.extensible = false) (key : Key) (value : Value) :
    array.add key value = .ok (.refused (.notExtensible key), array) := by
  cases key with
  | index i => simp only [add, closed, Bool.false_eq_true, if_false]
  | named text => simp only [add, OrdinaryObject.add_of_closed closed (.named text) value]

theorem extended_add_named {text : Text} (absent : array.getOwn (.named text) = none)
    (extensible : array.base.extensible = true) (value : Value) :
    ∃ base, array.add (.named text) value = .ok (.accepted, { array with base }) ∧
      array.view.Extended ({ array with base } : ArrayObject).view (.named text) value
        (fun _ => True) True := by
  simp only [getOwn] at absent
  split at absent
  next => cases absent
  next other =>
    obtain ⟨base, added, extended⟩ := OrdinaryObject.extended_add absent extensible value
    refine ⟨base, ?_, extended_withBase (Bool.eq_false_iff.mpr other) extended⟩
    simp only [add, added]

end Assigning

end ArrayObject

end ObjectModel
