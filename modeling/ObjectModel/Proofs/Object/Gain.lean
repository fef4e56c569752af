import ObjectModel.Proofs.Array.Assignment
import ObjectModel.Proofs.Object.Mutation

/-!
# Assignments to native objects

Whatever represents an object that shows no host collection, an assignment overwrites a writable
property, is refused at a read-only one, and gains the object a property that it lacks, if it is
extensible and an array has room for it.
-/

namespace ObjectModel

/-- The length that an array has at least once it has a property at a key. -/
def Key.reach : Key → Nat
  | .index i => i.toNat + 1
  | .named _ => 0

namespace Object

variable {object : Object} {key : Key} {slot : Slot} {old : Value} {attributes : Attributes}

/-- Whether an extensible object takes a property at a key: an array may have to grow for it. -/
def room (object : Object) (key : Key) : Except Fault Verdict :=
  match object, key with
  | .array inner, .index i =>
    if i.toNat < inner.length then .ok .accepted
    else if maxArrayLength ≤ i.toNat then .error (.range .arrayLength)
    else if inner.lengthWritable then .ok .accepted
    else .ok (.refused (.readOnlyOf .length .array))
  | _, _ => .ok .accepted

/-- An object before and after it got a property; the length of an array may have grown. -/
structure Gained (before after : Object) (key : Key) (value : Value) : Prop where
  kind : after.kind = before.kind
  view : before.view.Extended after.view key value
    (fun other => before.kind = .array → other.isLength = false)
    (before.kind = .array → ∀ i, key ≠ .index i)
  length : ∀ inner, before = .array inner → ∃ grown, after = .array grown ∧
    grown.length = max inner.length key.reach ∧ grown.lengthWritable = inner.lengthWritable

/-- A writable own property is overwritten; the length of an array is another matter. -/
theorem overwritten_write (native : object.kind ≠ .host)
    (notLength : object.kind = .array → key.isLength = false)
    (found : object.getOwn key = some slot) (data : slot.descriptor = .data old attributes)
    (writable : attributes.writable = true) (value : Value) :
    ∃ next, object.write key value = .ok (.accepted, next) ∧ next.kind = object.kind ∧
      object.view.Overwritten next.view key value attributes := by
  cases object with
  | ordinary inner =>
    obtain ⟨next, written, overwritten⟩ :=
      OrdinaryObject.overwritten_write found data writable value
    refine ⟨.ordinary next, ?_, rfl, overwritten⟩
    simp only [write, written, Prod.map, id]
  | function base =>
    obtain ⟨next, written, overwritten⟩ :=
      OrdinaryObject.overwritten_write found data writable value
    refine ⟨.function next, ?_, rfl, overwritten⟩
    simp only [write, written, Prod.map, id]
  | string inner =>
    obtain ⟨next, written, overwritten⟩ :=
      StringObject.overwritten_write found data writable value
    refine ⟨.string next, ?_, rfl, overwritten⟩
    simp only [write, written, Prod.map, id]
  | array inner =>
    obtain ⟨next, written, overwritten⟩ :=
      ArrayObject.overwritten_write (notLength rfl) found data writable value
    refine ⟨.array next, ?_, rfl, overwritten⟩
    simp only [write, written, Except.map, Prod.map, id]
  | map view => exact absurd rfl native
  | sequence view => exact absurd rfl native

theorem write_of_readOnly (native : object.kind ≠ .host)
    (notLength : object.kind = .array → key.isLength = false)
    (found : object.getOwn key = some slot) (data : slot.descriptor = .data old attributes)
    (readOnly : attributes.writable = false) (value : Value) :
    ∃ why, why.IsReadOnly key ∧ object.write key value = .ok (.refused why, object) := by
  cases object with
  | ordinary inner =>
    refine ⟨.readOnly key, .inl rfl, ?_⟩
    simp only [write, OrdinaryObject.write_of_readOnly found data readOnly value, Prod.map, id]
  | function base =>
    refine ⟨.readOnly key, .inl rfl, ?_⟩
    simp only [write, OrdinaryObject.write_of_readOnly found data readOnly value, Prod.map, id]
  | string inner =>
    obtain ⟨why, isReadOnly, refused⟩ := StringObject.write_of_readOnly found data readOnly value
    refine ⟨why, isReadOnly, ?_⟩
    simp only [write, refused, Prod.map, id]
  | array inner =>
    obtain ⟨why, isReadOnly, refused⟩ :=
      ArrayObject.write_of_readOnly (notLength rfl) found data readOnly value
    refine ⟨why, isReadOnly, ?_⟩
    simp only [write, refused, Except.map, Prod.map, id]
  | map view => exact absurd rfl native
  | sequence view => exact absurd rfl native

theorem add_of_closed (native : object.kind ≠ .host) (absent : object.getOwn key = none)
    (closed : object.isExtensible = false) (value : Value) :
    object.add key value = .ok (.refused (.notExtensible key), object) := by
  cases object with
  | ordinary inner =>
    have closedInner : inner.extensible = false := closed
    simp only [add, OrdinaryObject.add_of_closed closedInner key value, Prod.map, id]
  | function base =>
    have closedBase : base.extensible = false := closed
    simp only [add, OrdinaryObject.add_of_closed closedBase key value, Prod.map, id]
  | string inner =>
    simp only [add, StringObject.add_of_closed absent closed value, Prod.map, id]
  | array inner =>
    simp only [add, ArrayObject.add_of_closed closed key value, Except.map, Prod.map, id]
  | map view => exact absurd rfl native
  | sequence view => exact absurd rfl native

theorem gained_store {inner : ArrayObject} {i : UInt32} (missing : inner.element? i.toNat = none)
    {length : Nat} (covers : length = max inner.length (i.toNat + 1)) (value : Value) :
    (Object.array inner).Gained
      (.array (({ inner with length } : ArrayObject).store i.toNat (.bare value))) (.index i)
      value where
  kind := rfl
  view := (ArrayObject.extended_store missing length value).weaken
    (fun _ notLength => .inr (notLength rfl)) fun isLast => isLast rfl i rfl
  length := by
    intro other same
    cases same
    exact ⟨_, rfl, covers, rfl⟩

theorem add_of_extensible (native : object.kind ≠ .host) (absent : object.getOwn key = none)
    (extensible : object.isExtensible = true) (value : Value) :
    match object.room key with
    | .error fault => object.add key value = .error fault
    | .ok (.refused why) => object.add key value = .ok (.refused why, object)
    | .ok .accepted =>
      ∃ next, object.add key value = .ok (.accepted, next) ∧ object.Gained next key value := by
  have gained : ∀ {next : Object}, next.kind = object.kind → object.kind ≠ .array →
      object.view.Extended next.view key value (fun _ => True) True →
        object.Gained next key value := by
    intro next kind notArray extended
    exact
      { kind := kind
        view := extended.weaken (fun _ _ => trivial) fun _ => trivial
        length := by
          intro inner same
          rw [same] at notArray
          exact absurd rfl notArray }
  cases object with
  | ordinary inner =>
    obtain ⟨next, added, extended⟩ := OrdinaryObject.extended_add absent extensible value
    refine ⟨.ordinary next, ?_, gained rfl nofun extended⟩
    simp only [add, added, Prod.map, id]
  | function base =>
    obtain ⟨next, added, extended⟩ := OrdinaryObject.extended_add absent extensible value
    refine ⟨.function next, ?_, gained rfl nofun extended⟩
    simp only [add, added, Prod.map, id]
  | string inner =>
    obtain ⟨next, added, extended⟩ := StringObject.extended_add absent extensible value
    refine ⟨.string next, ?_, gained rfl nofun extended⟩
    simp only [add, added, Prod.map, id]
  | array inner =>
    have growable : inner.base.extensible = true := extensible
    cases key with
    | named text =>
      obtain ⟨base, added, extended⟩ :=
        ArrayObject.extended_add_named absent extensible value
      refine ⟨.array { inner with base }, ?_, ?_⟩
      · simp only [add, added, Except.map, Prod.map, id]
      · exact
          { kind := rfl
            view := extended.weaken (fun _ _ => trivial) fun _ => trivial
            length := by
              intro other same
              cases same
              exact ⟨{ inner with base }, rfl, (Nat.max_eq_left (Nat.zero_le _)).symm, rfl⟩ }
    | index i =>
      have missing : inner.element? i.toNat = none := absent
      simp only [room, add, ArrayObject.add, growable, if_true, ArrayObject.place_eq]
      by_cases inside : i.toNat < inner.length
      · simp only [if_pos inside]
        have covers : inner.length = max inner.length (i.toNat + 1) :=
          (Nat.max_eq_left inside).symm
        exact ⟨_, rfl, gained_store missing covers value⟩
      · simp only [if_neg inside]
        by_cases possible : maxArrayLength ≤ i.toNat
        · simp only [if_pos possible]
          rfl
        · simp only [if_neg possible]
          have covers : i.toNat + 1 = max inner.length (i.toNat + 1) := by omega
          by_cases writable : inner.lengthWritable = true
          · simp only [if_pos writable]
            exact ⟨_, rfl, gained_store missing covers value⟩
          · simp only [if_neg writable]
            rfl
  | map view => exact absurd rfl native
  | sequence view => exact absurd rfl native

end Object

end ObjectModel
