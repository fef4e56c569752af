import ObjectModel.Proofs.Object.Canonical

/-!
# Definitions of what is there

A definition that is accepted makes of a property what its request says.  A property that has all
that a request names is left as it is by that request, and the object with it, also the property
that an object has by its kind.  The length of an array is not spoken of here: its definition
follows rules of its own.
-/

namespace ObjectModel

theorem OrdinaryObject.store_of_getOwn {object : OrdinaryObject} {key : Key} {slot : Slot}
    (found : object.getOwn key = some slot) : object.store key slot = object := by
  unfold store
  rw [OrderedMap.insert_of_get? found]

/-- To make a hole and fill it with what was there changes nothing, not even the storage. -/
theorem Elements.put_clear_of_get? {elements : Elements} {index : Nat} {slot : Slot}
    (found : elements.get? index = some slot) (policy : Policy) (count : Nat) :
    (elements.clear index).put policy count index slot = elements := by
  cases elements with
  | dense slots capacity =>
    have held : slots[index]? = some (some slot) := Option.join_eq_some_iff.mp found
    obtain ⟨inside, here⟩ := List.getElem?_eq_some_iff.mp held
    simp only [clear, put, List.length_set, if_pos inside, List.set_set]
    rw [← here, List.set_getElem_self]
  | sparse slots =>
    simp only [clear, put]
    rw [AscendingMap.insert_erase, AscendingMap.insert_of_get? found]

theorem ArrayObject.WellFormed.store_of_element? {array : ArrayObject}
    (wellFormed : array.WellFormed) {index : Nat} {slot : Slot}
    (found : array.element? index = some slot) : array.store index slot = array := by
  have counted := (wellFormed.counted found).2
  have described : array.describedCount - ((some slot).any Slot.isDescribed).toNat +
      slot.isDescribed.toNat = array.describedCount := Nat.sub_add_cancel counted
  simp only [ArrayObject.store, found, Elements.put_clear_of_get? found, described]
  rfl

variable {key : Key} {request : Request} {slot : Slot}

namespace OrdinaryObject

variable {object next : OrdinaryObject} (canonical : object.Canonical)

include canonical

theorem define_of_reportedBy (found : object.getOwn key = some slot)
    (reported : request.ReportedBy slot.descriptor) :
    object.define key request = .ok (.accepted, object) := by
  have decided := resolution_of_reportedBy (canonical key slot found) reported key object.extensible
  unfold define
  rw [found, decided]
  exact congrArg (fun same => Except.ok (Verdict.accepted, same)) (store_of_getOwn found)

theorem exists_mergesInto_of_define (done : object.define key request = .ok (.accepted, next)) :
    ∃ slot, next.getOwn key = some slot ∧
      request.MergesInto ((object.getOwn key).map Slot.descriptor) slot.descriptor := by
  obtain ⟨resolution, decided, done⟩ := exists_of_bind_eq_ok done
  cases resolution with
  | refused why => cases done
  | stored slot =>
    cases done
    refine ⟨slot, ?_, (mergesInto_of_resolution (canonical key) decided).1⟩
    rw [getOwn_store, if_pos rfl]

end OrdinaryObject

namespace StringObject

variable {string next : StringObject} (canonical : string.base.Canonical)

include canonical

theorem define_of_reportedBy (found : string.getOwn key = some slot)
    (reported : request.ReportedBy slot.descriptor) :
    string.define key request = .ok (.accepted, string) := by
  rcases Option.or_eq_some_iff.mp found with fixed | ⟨further, foundBase⟩
  · obtain ⟨value, enumerable, rfl⟩ := eq_fixed_of_fixed? fixed
    simp only [define, fixed, resolution_of_reportedBy (.fixed value enumerable) reported key true]
    rfl
  · simp only [define, further, OrdinaryObject.define_of_reportedBy canonical foundBase reported]
    rfl

theorem exists_mergesInto_of_define (done : string.define key request = .ok (.accepted, next)) :
    ∃ slot, next.getOwn key = some slot ∧
      request.MergesInto ((string.getOwn key).map Slot.descriptor) slot.descriptor := by
  unfold define at done
  cases fixed : string.fixed? key with
  | none =>
    rw [fixed] at done
    obtain ⟨⟨verdict, base⟩, defined, done⟩ := exists_of_bind_eq_ok done
    cases done
    obtain ⟨slot, found, merges⟩ := OrdinaryObject.exists_mergesInto_of_define canonical defined
    have sameFixed : fixed? { string with base } key = none := fixed
    refine ⟨slot, ?_, ?_⟩
    · rw [getOwn, sameFixed]
      exact found
    · rw [getOwn, fixed]
      exact merges
  | some slot =>
    -- What is stored is never put anywhere, but the property is fixed, so it is what is there.
    rw [fixed] at done
    obtain ⟨resolution, decided, done⟩ := exists_of_bind_eq_ok done
    cases resolution with
    | refused why => cases done
    | stored stored =>
      cases done
      obtain ⟨value, enumerable, rfl⟩ := eq_fixed_of_fixed? fixed
      have stays : ∀ old, some (Slot.fixed value enumerable) = some old → old.Canonical := by
        rintro _ ⟨⟩
        exact .fixed value enumerable
      obtain ⟨next, same, kept⟩ := (succeeds_resolution decided).kept _ rfl rfl
      cases same
      have merges := (mergesInto_of_resolution stays decided).1
      rw [kept.eq_of_readOnly] at merges
      have found : string.getOwn key = some (.fixed value enumerable) :=
        Option.or_eq_some_iff.mpr (.inl fixed)
      rw [found]
      exact ⟨_, rfl, merges⟩

end StringObject

namespace ArrayObject

variable {array next : ArrayObject}

theorem element?_of_place {index : Nat} (done : array.place index slot = .ok (.accepted, next)) :
    next.element? index = some slot := by
  rw [place_eq] at done
  split at done
  next =>
    cases done
    rw [element?_store, if_pos rfl]
  next =>
    split at done
    next => cases done
    next =>
      split at done
      next =>
        cases done
        rw [element?_store, if_pos rfl]
      next => cases done

variable (canonical : array.Canonical) (notLength : key.isLength = false)

include canonical notLength

theorem define_of_reportedBy (found : array.getOwn key = some slot)
    (reported : request.ReportedBy slot.descriptor) :
    array.define key request = .ok (.accepted, array) := by
  cases key with
  | index i =>
    have decided := resolution_of_reportedBy (canonical.elements i.toNat slot found) reported
      (.index i) array.base.extensible
    have inside := canonical.wellFormed.lt_length found
    have placed : array.place i.toNat slot = .ok (.accepted, array) := by
      rw [place_eq, if_pos inside, canonical.wellFormed.store_of_element? found]
    have foundElement : array.element? i.toNat = some slot := found
    simp only [define, foundElement, decided]
    exact placed
  | named text =>
    simp only [getOwn, notLength] at found
    simp only [define, notLength]
    have defined := OrdinaryObject.define_of_reportedBy canonical.base found reported
    rw [defined]
    rfl

theorem exists_mergesInto_of_define (done : array.define key request = .ok (.accepted, next)) :
    ∃ slot, next.getOwn key = some slot ∧
      request.MergesInto ((array.getOwn key).map Slot.descriptor) slot.descriptor := by
  cases key with
  | index i =>
    obtain ⟨resolution, decided, done⟩ := exists_of_bind_eq_ok done
    cases resolution with
    | refused why => cases done
    | stored slot =>
      have merges := (mergesInto_of_resolution (canonical.elements i.toNat) decided).1
      exact ⟨slot, element?_of_place done, merges⟩
  | named text =>
    simp only [define, notLength] at done
    obtain ⟨⟨verdict, base⟩, defined, done⟩ := exists_of_bind_eq_ok done
    cases done
    simp only [getOwn, notLength]
    exact OrdinaryObject.exists_mergesInto_of_define canonical.base defined

end ArrayObject

namespace Object

variable {object next : Object} (canonical : object.Canonical) (native : object.kind ≠ .host)
  (notLength : object.kind = .array → key.isLength = false)

include canonical native notLength

/-- A request changes nothing about an object that has all that the request names. -/
theorem define_of_reportedBy (found : object.getOwn key = some slot)
    (reported : request.ReportedBy slot.descriptor) :
    object.define key request = .ok (.accepted, object) := by
  cases object with
  | ordinary inner =>
    have defined := OrdinaryObject.define_of_reportedBy canonical found reported
    simp only [define, defined]
    rfl
  | function base =>
    have defined := OrdinaryObject.define_of_reportedBy canonical found reported
    simp only [define, defined]
    rfl
  | string inner =>
    have defined := StringObject.define_of_reportedBy canonical found reported
    simp only [define, defined]
    rfl
  | array inner =>
    have defined := ArrayObject.define_of_reportedBy canonical (notLength rfl) found reported
    simp only [define, defined]
    rfl
  | map view => exact absurd rfl native
  | sequence view => exact absurd rfl native

theorem exists_mergesInto_of_define (done : object.define key request = .ok (.accepted, next)) :
    ∃ slot, next.getOwn key = some slot ∧
      request.MergesInto ((object.getOwn key).map Slot.descriptor) slot.descriptor := by
  have changed : object.mutate (.define key request) = .ok (.accepted, next) := done
  cases mutates_of_mutate changed with
  | ordinary mutated => exact OrdinaryObject.exists_mergesInto_of_define canonical mutated
  | function mutated => exact OrdinaryObject.exists_mergesInto_of_define canonical mutated
  | string mutated => exact StringObject.exists_mergesInto_of_define canonical mutated
  | array mutated =>
    exact ArrayObject.exists_mergesInto_of_define canonical (notLength rfl) mutated
  | map => exact absurd rfl native
  | sequence => exact absurd rfl native

end Object

end ObjectModel
