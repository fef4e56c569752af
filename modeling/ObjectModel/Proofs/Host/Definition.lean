import ObjectModel.Proofs.Object.OwnKeys

/-!
# What a definition on a host collection shows

A definition of an entry, an item or the length of a host collection that is accepted stores the
value that it names, converted.  But attributes are not stored: what is shown afterwards has the
attributes that it always has.  Most requests for others are refused.  The ones that are accepted
all the same are named here, and they are the only ones that are not met.
-/

namespace ObjectModel

/-- Whether a property is as a request wants it: each attribute that is named is the one that is
named, and the value is what the value that is named is read back as. -/
structure Slot.Meets (slot : Slot) (request : Request) (readBack : Value → Except Fault Value) :
    Prop where
  isData : request.isAccessor = false
  writable : ∀ named, request.writable = some named → slot.isWritable = named
  enumerable : ∀ named, request.enumerable = some named → slot.isEnumerable = named
  configurable : ∀ named, request.configurable = some named → slot.isConfigurable = named
  value : ∀ named, request.value = some named →
    ∃ shown, readBack named = .ok shown ∧ slot.descriptor.value? = some shown

/-- Whether a request is for an entry that is not listed or cannot be deleted, as no entry is. -/
def Request.unsets (request : Request) : Bool :=
  request.enumerable == some false || request.configurable == some false

variable {elementType : ElementType} {key : Key} {request : Request} {verdict : Verdict}

/-- How an element is read after a value has been converted to it. -/
def ElementType.readBack (elementType : ElementType) (value : Value) : Except Fault Value :=
  (elementType.ofValue value).map elementType.toValue

/-- How a length is read after a value has been converted to it. -/
def lengthReadBack (value : Value) : Except Fault Value :=
  (toArrayLength value).map fun length => .number (.ofNat length)

/-- An entry that holds the element of a request that is not refused meets it, unless an attribute
is to be unset. -/
theorem meets_bare_iff {element : elementType.Carrier} (allowed : entryRefusal? key request = none)
    (converted : ∀ value, request.value = some value → elementType.ofValue value = .ok element) :
    (Slot.bare (elementType.toValue element)).Meets request elementType.readBack ↔
      request.unsets = false := by
  have checked : request.isAccessor = false ∧ request.writable ≠ some false := by
    unfold entryRefusal? at allowed
    split at allowed
    next => cases allowed
    next plain =>
      split at allowed
      next => cases allowed
      next writable =>
        exact ⟨Bool.eq_false_iff.mpr plain, fun same => writable (beq_iff_eq.mpr same)⟩
  constructor
  · intro meets
    have listed : request.enumerable ≠ some false := fun named => by
      cases meets.enumerable false named
    have deletable : request.configurable ≠ some false := fun named => by
      cases meets.configurable false named
    simp [Request.unsets, listed, deletable]
  · intro keeps
    simp only [Request.unsets, Bool.or_eq_false_iff, beq_eq_false_iff_ne] at keeps
    constructor
    case isData => exact checked.1
    case writable =>
      rintro (_ | _) named
      · exact absurd named checked.2
      · rfl
    case enumerable =>
      rintro (_ | _) named
      · exact absurd named keeps.1
      · rfl
    case configurable =>
      rintro (_ | _) named
      · exact absurd named keeps.2
      · rfl
    case value =>
      intro value named
      exact ⟨_, by rw [ElementType.readBack, converted value named]; rfl, rfl⟩

namespace HostMap

variable {keyType : KeyType} {view next : HostMap keyType elementType}
  {hostKey : keyType.Carrier}

theorem exists_of_store_accepted {value : Value}
    (done : view.store hostKey value = .ok (.accepted, next)) :
    ∃ element, next.entries.get? hostKey = some element ∧
      elementType.ofValue value = .ok element := by
  obtain ⟨element, converted, done⟩ := exists_of_bind_eq_ok done
  cases done
  exact ⟨element, by rw [OrderedMap.get?_insert, if_pos rfl], converted⟩

/-- A definition of an entry that is accepted was to be allowed, and leaves an entry that holds the
value that it names. -/
theorem exists_of_define_accepted (denotes : keyType.ofKey? key = some hostKey)
    (done : view.define key request = .ok (.accepted, next)) :
    entryRefusal? key request = none ∧ ∃ element, next.entries.get? hostKey = some element ∧
      ∀ value, request.value = some value → elementType.ofValue value = .ok element := by
  simp only [define, denotes] at done
  split at done
  next => cases done
  next allowed =>
    refine ⟨allowed, ?_⟩
    split at done
    next => cases done
    next =>
      split at done
      next value named =>
        obtain ⟨element, held, converted⟩ := exists_of_store_accepted done
        refine ⟨element, held, fun other namedOther => ?_⟩
        cases named.symm.trans namedOther
        exact converted
      next unnamed =>
        have nothing (value : Value) : request.value ≠ some value := fun named => by
          cases unnamed.symm.trans named
        split at done
        next present =>
          cases done
          obtain ⟨element, held⟩ := Option.isSome_iff_exists.mp present
          exact ⟨element, held, fun value named => absurd named (nothing value)⟩
        next =>
          obtain ⟨element, held, _⟩ := exists_of_store_accepted done
          exact ⟨element, held, fun value named => absurd named (nothing value)⟩

end HostMap

namespace HostSequence

variable {view next : HostSequence elementType}

theorem length_fit (items : List elementType.Carrier) (length : Nat) :
    (fit items length).length = length := by
  simp only [fit, List.length_append, List.length_take, List.length_replicate]
  omega

theorem exists_of_store_accepted {index : Nat} {value : Value}
    (done : view.store index value = .ok (.accepted, next)) :
    ∃ item, next.items[index]? = some item ∧ elementType.ofValue value = .ok item := by
  obtain ⟨item, converted, done⟩ := exists_of_bind_eq_ok done
  split at done
  next inside =>
    cases done
    exact ⟨item, by simp only [List.getElem?_set_self inside], converted⟩
  next =>
    split at done
    next =>
      cases done
      refine ⟨item, ?_, converted⟩
      have last := length_fit view.items index
      simp only
      rw [List.getElem?_append_right (Nat.le_of_eq last), last, Nat.sub_self]
      rfl
    next => cases done

/-- A definition of an item that is accepted was to be allowed, and leaves an item that holds the
value that it names; but if it names none there may be no item. -/
theorem define_item_accepted {i : UInt32}
    (done : view.define (.index i) request = .ok (.accepted, next)) :
    entryRefusal? (.index i) request = none ∧
      ((∃ item, next.items[i.toNat]? = some item ∧
          ∀ value, request.value = some value → elementType.ofValue value = .ok item) ∨
        request.value = none ∧ next.items.length ≤ i.toNat) := by
  simp only [define] at done
  split at done
  next => cases done
  next value allowed named =>
    obtain ⟨item, held, converted⟩ := exists_of_store_accepted done
    refine ⟨allowed, .inl ⟨item, held, fun other namedOther => ?_⟩⟩
    cases named.symm.trans namedOther
    exact converted
  next allowed unnamed =>
    cases done
    refine ⟨allowed, ?_⟩
    rcases Nat.lt_or_ge i.toNat view.items.length with inside | beyond
    · refine .inl ⟨_, List.getElem?_eq_getElem inside, fun value named => ?_⟩
      cases unnamed.symm.trans named
    · exact .inr ⟨unnamed, beyond⟩

theorem of_resize_accepted {value : Value}
    (done : view.resize value = .ok (.accepted, next)) :
    toArrayLength value = .ok next.items.length := by
  obtain ⟨length, converted, done⟩ := exists_of_bind_eq_ok done
  split at done
  next same =>
    cases done
    rw [converted, same]
  next =>
    split at done
    next =>
      cases done
      rw [converted, length_fit]
    next => cases done

/-- A definition of the length that is accepted names no function and sets no attribute but
`writable`, and the length is the one that it names. -/
theorem define_length_accepted {text : Text} (isLength : (Key.named text).isLength = true)
    (done : view.define (.named text) request = .ok (.accepted, next)) :
    request.isAccessor = false ∧ request.configurable ≠ some true ∧
      request.enumerable ≠ some true ∧
      ∀ value, request.value = some value → toArrayLength value = .ok next.items.length := by
  simp only [define, isLength, if_true] at done
  split at done
  next => cases done
  next allowed =>
    simp only [Bool.or_eq_true, not_or, beq_iff_eq, Bool.not_eq_true] at allowed
    obtain ⟨⟨isData, configurable⟩, enumerable⟩ := allowed
    refine ⟨isData, configurable, enumerable, fun value named => ?_⟩
    rw [named] at done
    exact of_resize_accepted done

end HostSequence

namespace Object

variable {object next : Object}

/-- Whether a key is that of an entry, an item or the length of a host collection. -/
def collects : Object → Key → Bool
  | @map keyType _ _, key => (keyType.ofKey? key).isSome
  | .sequence _, key => key.isSpecial
  | _, _ => false

/-- What is read at a key of a collection after a value has been converted for it. -/
def readBack : Object → Key → Value → Except Fault Value
  | @map _ elementType _, _, value => elementType.readBack value
  | @sequence elementType _, .index _, value => elementType.readBack value
  | .sequence _, .named _, value => lengthReadBack value
  | _, _, value => .ok value

/-- Whether an object shows a property as a request wants it. -/
def Shows (object : Object) (key : Key) (request : Request) : Prop :=
  ∃ slot, object.getOwn key = some slot ∧ slot.Meets request (object.readBack key)

/-- Whether a request is one that is reported as done though it is not: to unset an attribute of an
entry or item, to have an item beyond the last one without a value, or to change whether the length
is writable. -/
def overlooks : Object → Key → Request → Bool
  | .map _, _, request => request.unsets
  | .sequence view, .index i, request =>
    request.unsets || (request.value.isNone && view.items.length ≤ i.toNat)
  | .sequence view, .named _, request => request.writable == some (!view.resizable)
  | _, _, _ => false

theorem shows_iff_of_getOwn {slot : Slot} (found : object.getOwn key = some slot) :
    object.Shows key request ↔ slot.Meets request (object.readBack key) := by
  constructor
  · rintro ⟨other, foundOther, meets⟩
    cases found.symm.trans foundOther
    exact meets
  · exact fun meets => ⟨slot, found, meets⟩

theorem not_shows_of_getOwn (absent : object.getOwn key = none) : ¬object.Shows key request := by
  rintro ⟨slot, found, _⟩
  cases absent.symm.trans found

theorem meets_length_iff {view : HostSequence elementType} {text : Text}
    (isData : request.isAccessor = false) (configurable : request.configurable ≠ some true)
    (enumerable : request.enumerable ≠ some true)
    (converted : ∀ value, request.value = some value →
      toArrayLength value = .ok view.items.length) :
    (Slot.described (.data (.number (.ofNat view.items.length))
        ⟨view.resizable, false, false⟩)).Meets request (readBack (.sequence view) (.named text)) ↔
      overlooks (.sequence view) (.named text) request = false := by
  constructor
  · intro meets
    apply beq_eq_false_iff_ne.mpr
    intro named
    have same : view.resizable = !view.resizable := meets.writable _ named
    cases resizable : view.resizable <;> rw [resizable] at same <;> cases same
  · intro keeps
    have keeps : request.writable ≠ some (!view.resizable) := beq_eq_false_iff_ne.mp keeps
    constructor
    case isData => exact isData
    case writable =>
      intro writable named
      refine Classical.byContradiction fun different => keeps ?_
      rw [named, Bool.eq_not.mpr (Ne.symm different)]
      rfl
    case enumerable =>
      rintro (_ | _) named
      · rfl
      · exact absurd named enumerable
    case configurable =>
      rintro (_ | _) named
      · rfl
      · exact absurd named configurable
    case value =>
      intro value named
      refine ⟨_, ?_, rfl⟩
      rw [readBack, lengthReadBack, converted value named]
      rfl

/-- A request for an entry, an item or the length of a host collection that is reported as done is
met, unless it is one that is overlooked. -/
theorem shows_iff_of_define (collects : object.collects key = true)
    (done : object.define key request = .ok (.accepted, next)) :
    next.Shows key request ↔ next.overlooks key request = false := by
  cases object
  case map keyType elementType view =>
    obtain ⟨after, defined, rfl⟩ := exists_of_map_wrap_eq_ok done
    obtain ⟨hostKey, denotes⟩ := Option.isSome_iff_exists.mp collects
    obtain ⟨allowed, element, held, converted⟩ :=
      HostMap.exists_of_define_accepted denotes defined
    have found : (map after).getOwn key = some (.bare (elementType.toValue element)) := by
      simp only [getOwn, HostMap.getOwn, denotes, held, Option.map_some]
    rw [shows_iff_of_getOwn found]
    exact meets_bare_iff allowed converted
  case sequence elementType view =>
    obtain ⟨after, defined, rfl⟩ := exists_of_map_wrap_eq_ok done
    cases key with
    | named text =>
      have isLength : (Key.named text).isLength = true := collects
      obtain ⟨isData, configurable, enumerable, converted⟩ :=
        HostSequence.define_length_accepted isLength defined
      have found : (sequence after).getOwn (.named text) =
          some (.described (.data (.number (.ofNat after.items.length))
            ⟨after.resizable, false, false⟩)) := by
        simp only [getOwn, HostSequence.getOwn, isLength, if_true]
      rw [shows_iff_of_getOwn found]
      exact meets_length_iff isData configurable enumerable converted
    | index i =>
      obtain ⟨allowed, ⟨item, held, converted⟩ | ⟨unnamed, beyond⟩⟩ :=
        HostSequence.define_item_accepted defined
      · have inside : i.toNat < after.items.length := (List.getElem?_eq_some_iff.mp held).1
        have found : (sequence after).getOwn (.index i) =
            some (.bare (elementType.toValue item)) := by
          simp only [getOwn, HostSequence.getOwn, held, Option.map_some]
        have overlooks : (sequence after).overlooks (.index i) request = request.unsets := by
          simp [Object.overlooks, Nat.not_le_of_lt inside]
        rw [shows_iff_of_getOwn found, overlooks]
        exact meets_bare_iff allowed converted
      · have absent : (sequence after).getOwn (.index i) = none := by
          simp only [getOwn, HostSequence.getOwn, List.getElem?_eq_none beyond, Option.map_none]
        have overlooks : (sequence after).overlooks (.index i) request = true := by
          simp [Object.overlooks, unnamed, beyond]
        rw [overlooks]
        exact iff_of_false (not_shows_of_getOwn absent) (by decide)
  all_goals cases collects

theorem collects_of_define (done : object.define key request = .ok (verdict, next)) (other : Key) :
    next.collects other = object.collects other := by
  have mutated : object.mutate (.define key request) = .ok (verdict, next) := done
  cases mutates_of_mutate mutated <;> rfl

end Object

end ObjectModel
