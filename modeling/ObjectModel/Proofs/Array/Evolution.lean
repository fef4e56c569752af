import ObjectModel.Proofs.Array.Mutation

/-!
# What may become of an array

An array evolves when its elements succeed each other, its length is not changed once it is
read-only, and the store of its other properties evolves.  A shrinking array drops elements that may
be deleted, and no others.
-/

namespace ObjectModel.ArrayObject

variable {array next : ArrayObject} {verdict : Verdict}

def view (array : ArrayObject) : OwnView :=
  ⟨array.getOwn, array.ownKeys, array.base.prototype, array.base.extensible⟩

theorem evolves_of_parts (base : array.base.view.Evolves next.base.view)
    (elements : ∀ index,
      Slot.Succeeds array.base.extensible (array.element? index) (next.element? index))
    (frozen : array.lengthWritable = false →
      next.lengthWritable = false ∧ next.length = array.length) :
    array.view.Evolves next.view where
  properties key := by
    cases key with
    | index i => exact elements i.toNat
    | named text =>
      simp only [view, getOwn]
      split
      next =>
        apply Slot.Succeeds.of_keptAs
        apply Descriptor.KeptAs.data
        intro readOnly
        obtain ⟨readOnlyAfter, sameLength⟩ := frozen readOnly
        exact ⟨readOnlyAfter, by rw [sameLength]⟩
      next => exact base.properties (.named text)
  closed := base.closed

theorem evolves_withBase {base : OrdinaryObject} (evolves : array.base.view.Evolves base.view) :
    array.view.Evolves ({ array with base } : ArrayObject).view :=
  evolves_of_parts evolves (fun _ => .refl _ _) fun readOnly => ⟨readOnly, rfl⟩

theorem evolves_defineWritable (array : ArrayObject) (resized : Verdict) (request : Request) :
    array.view.Evolves (array.defineWritable resized request).2.view := by
  apply evolves_of_parts
  case base => exact .refl _
  case elements => exact fun _ => .refl _ _
  case frozen =>
    intro readOnly
    refine ⟨?_, rfl⟩
    simp only [defineWritable, readOnly, Bool.false_and]

theorem evolves_store {index : Nat} {slot : Slot}
    (succeeds : Slot.Succeeds array.base.extensible (array.element? index) (some slot)) :
    array.view.Evolves (array.store index slot).view := by
  apply evolves_of_parts
  case base => exact .refl _
  case elements =>
    intro wanted
    rw [element?_store]
    split
    next here =>
      rw [here]
      exact succeeds
    next => exact .refl _ _
  case frozen => exact fun readOnly => ⟨readOnly, rfl⟩

theorem evolves_lengthen (writable : array.lengthWritable = true) (length : Nat) :
    array.view.Evolves ({ array with length } : ArrayObject).view := by
  apply evolves_of_parts
  case base => exact .refl _
  case elements => exact fun _ => .refl _ _
  case frozen =>
    intro readOnly
    rw [writable] at readOnly
    cases readOnly

theorem evolves_shorten (writable : array.lengthWritable = true) {bound : Nat}
    (configurable : ∀ index slot, bound ≤ index → array.element? index = some slot →
      slot.isConfigurable = true) :
    array.view.Evolves ({ array.dropFrom bound with length := bound } : ArrayObject).view := by
  apply evolves_of_parts
  case base => exact .refl _
  case elements =>
    intro index
    have kept := element?_dropFrom array bound index
    have same : ({ array.dropFrom bound with length := bound } : ArrayObject).element? index =
        (array.dropFrom bound).element? index := rfl
    rw [same, kept]
    split
    next => exact .refl _ _
    next outside =>
      cases found : array.element? index with
      | none => exact .refl _ _
      | some slot =>
        exact .of_isConfigurable (configurable index slot (Nat.le_of_not_lt outside) found) _
  case frozen =>
    intro readOnly
    rw [writable] at readOnly
    cases readOnly

theorem evolves_modify {index : Nat} {slot written : Slot} {value : Value}
    (found : array.element? index = some slot) (overwritten : slot.write? value = some written) :
    array.view.Evolves
      ({ array with elements := array.elements.modify index written } : ArrayObject).view := by
  apply evolves_of_parts
  case base => exact .refl _
  case elements =>
    intro other
    have present : (array.elements.get? index).isSome := Option.isSome_of_eq_some found
    simp only [element?, Elements.get?_modify present]
    split
    next here =>
      have held : array.elements.get? other = some slot := here ▸ found
      rw [held]
      exact Slot.succeeds_write? overwritten _
    next => exact .refl _ _
  case frozen => exact fun readOnly => ⟨readOnly, rfl⟩

theorem evolves_remove {index : Nat} {slot : Slot} (found : array.element? index = some slot)
    (configurable : slot.isConfigurable = true) (elementCount describedCount : Nat) :
    array.view.Evolves
      ({ array with
          elements := array.elements.clear index
          elementCount := elementCount
          describedCount := describedCount } : ArrayObject).view := by
  apply evolves_of_parts
  case base => exact .refl _
  case elements =>
    intro other
    simp only [element?, Elements.get?_clear]
    split
    next here =>
      have held : array.elements.get? other = some slot := here ▸ found
      rw [held]
      exact .of_isConfigurable configurable _
    next => exact .refl _ _
  case frozen => exact fun readOnly => ⟨readOnly, rfl⟩

namespace WellFormed

/-- Whatever length is assigned, the elements that must stay do. -/
theorem evolves_setLength (wellFormed : array.WellFormed) (length : Nat) :
    array.view.Evolves (array.setLength length).2.view := by
  simp only [ArrayObject.setLength]
  split
  next => exact .refl _
  next =>
    split
    next writable =>
      simp only [ArrayObject.truncate, wellFormed.blocker?_eq]
      cases blocked :
          array.elements.toSparse.lastFrom? (fun slot => !slot.isConfigurable) length with
      | some index =>
        obtain ⟨above, ⟨slot, found, _⟩, beyond⟩ := AscendingMap.lastFrom?_eq_some blocked
        rw [Elements.get?_toSparse] at found
        have below : index < array.length := wellFormed.lt_length found
        simp only [if_pos (Nat.lt_of_le_of_lt above below)]
        apply evolves_shorten writable
        intro other stored after foundOther
        rw [element?, ← Elements.get?_toSparse] at foundOther
        have fixed := beyond other stored after foundOther
        rwa [Bool.not_eq_false'] at fixed
      | none =>
        simp only
        split
        next =>
          apply evolves_shorten writable
          intro other stored after foundOther
          rw [element?, ← Elements.get?_toSparse] at foundOther
          have unblocked := AscendingMap.lastFrom?_eq_none_iff.mp blocked
          have fixed := unblocked other stored after foundOther
          rwa [Bool.not_eq_false'] at fixed
        next => exact evolves_lengthen writable length
    next => exact .refl _

end WellFormed

theorem Edits.evolves {suited : Prop} (edits : Edits suited array next)
    (wellFormed : array.WellFormed) (suits : suited) : array.view.Evolves next.view := by
  -- Well-formedness goes along: without it a shrink might pass by an element that must stay.
  induction edits with
  | refl array => exact .refl _
  | trans before after first second =>
    exact (first wellFormed).trans (second (before.wellFormed wellFormed))
  | withBase evolves linked => exact evolves_withBase (evolves suits)
  | store inside succeeds => exact evolves_store (succeeds suits)
  | modify found overwritten => exact evolves_modify found overwritten
  | remove found configurable => exact evolves_remove found configurable _ _
  | lengthen writable longer possible => exact evolves_lengthen writable _
  | setLength possible => exact wellFormed.evolves_setLength _
  | defineWritable resized request => exact evolves_defineWritable _ resized request

end ObjectModel.ArrayObject
