import ObjectModel.Proofs.Object.OwnKeys

/-!
# Mutations of further properties

Objects that keep what is at reserved keys themselves have their further properties in an ordinary
object.  A mutation at a reserved key leaves that alone, and any other is a mutation of it; so it
adds one key at the end, takes one away, or leaves all keys where they are.
-/

namespace ObjectModel

namespace OwnMutation

def key : OwnMutation → Key
  | .write key _ | .add key _ | .define key _ | .delete key => key

/-- Whether a mutation, if it adds a length, adds it where none is reserved. -/
def Fits (reserved : Key → Bool) : OwnMutation → Prop
  | .add key _ => key.isLength = true → reserved key = false
  | .write .. | .define .. | .delete _ => True

/-- What a mutation does to the keys in the order of their insertion. -/
inductive Rekeys (mutation : OwnMutation) (keys : List Key) : List Key → Prop
  | same : Rekeys mutation keys keys
  | appended (absent : mutation.key ∉ keys) : Rekeys mutation keys (keys ++ [mutation.key])
  | removed (deletes : mutation = .delete mutation.key) :
      Rekeys mutation keys (keys.filter fun key => key ≠ mutation.key)

namespace Rekeys

variable {mutation : OwnMutation} {keys after : List Key}

theorem mem (rekeys : mutation.Rekeys keys after) {key : Key} (member : key ∈ after) :
    key ∈ keys ∨ key = mutation.key := by
  cases rekeys with
  | same => exact .inl member
  | appended =>
    rcases List.mem_append.mp member with old | new
    · exact .inl old
    · exact .inr (List.mem_singleton.mp new)
  | removed => exact .inl (List.mem_filter.mp member).1

theorem keepsPlace (rekeys : mutation.Rekeys keys after) {key : Key}
    (spared : mutation ≠ .delete key) : KeepsPlace key keys after := by
  cases rekeys with
  | same => exact .refl key keys
  | appended absent => exact .append absent
  | removed deletes =>
    apply KeepsPlace.filter
    rw [decide_eq_true_iff]
    intro same
    exact spared (same ▸ deletes)

end Rekeys

end OwnMutation

namespace OrdinaryObject

variable {object next : OrdinaryObject} {verdict : Verdict} {mutation : OwnMutation} {key : Key}

def keys (object : OrdinaryObject) : List Key := object.properties.keys

theorem rekeys_store (about : mutation.key = key) (object : OrdinaryObject) (slot : Slot) :
    mutation.Rekeys object.keys (object.store key slot).keys := by
  unfold keys store
  rw [OrderedMap.keys_insert, ← about]
  split
  next => exact .same
  next absent => exact .appended absent

theorem rekeys_add (about : mutation.key = key) (object : OrdinaryObject) (value : Value) :
    mutation.Rekeys object.keys (object.add key value).2.keys := by
  unfold add
  split
  next => exact rekeys_store about object _
  next => exact .same

theorem rekeys_write (about : mutation.key = key) (object : OrdinaryObject) (value : Value) :
    mutation.Rekeys object.keys (object.write key value).2.keys := by
  unfold write
  split
  next => exact rekeys_add about object value
  next =>
    split
    next => exact rekeys_store about object _
    next => exact .same

theorem rekeys_define (about : mutation.key = key) {request : Request}
    (done : object.define key request = .ok (verdict, next)) :
    mutation.Rekeys object.keys next.keys := by
  obtain ⟨resolution, _, done⟩ := exists_of_bind_eq_ok done
  cases resolution with
  | stored slot =>
    cases done
    exact rekeys_store about object slot
  | refused why =>
    cases done
    exact .same

theorem rekeys_delete (object : OrdinaryObject) (key : Key) :
    (OwnMutation.delete key).Rekeys object.keys (object.delete key).2.keys := by
  unfold delete
  split
  next => exact .same
  next =>
    split
    next =>
      unfold keys
      rw [OrderedMap.keys_erase]
      exact .removed rfl
    next => exact .same

theorem rekeys_mutate (done : object.mutate mutation = .ok (verdict, next)) :
    mutation.Rekeys object.keys next.keys := by
  cases mutation with
  | write key value =>
    have rekeys : (OwnMutation.write key value).Rekeys object.keys
        (object.write key value).2.keys := rekeys_write rfl object value
    rw [Except.ok.inj done] at rekeys
    exact rekeys
  | add key value =>
    have rekeys : (OwnMutation.add key value).Rekeys object.keys (object.add key value).2.keys :=
      rekeys_add rfl object value
    rw [Except.ok.inj done] at rekeys
    exact rekeys
  | define key request => exact rekeys_define rfl done
  | delete key =>
    have rekeys := object.rekeys_delete key
    rw [Except.ok.inj done] at rekeys
    exact rekeys

theorem not_mem_keys_of_delete (gone : object.mutate (.delete key) = .ok (.accepted, next)) :
    key ∉ next.keys := by
  have deleted : object.delete key = (.accepted, next) := Except.ok.inj gone
  unfold delete at deleted
  split at deleted
  next absent =>
    cases deleted
    exact OrderedMap.not_mem_keys absent
  next =>
    split at deleted
    next =>
      cases deleted
      unfold keys
      rw [OrderedMap.keys_erase, List.mem_filter]
      simp
    next => cases deleted

end OrdinaryObject

/-- What a mutation does to the further properties of an object that keeps what is at reserved keys
itself: nothing, or what it does to an ordinary object. -/
inductive Rebases (mutation : OwnMutation) (reserved : Key → Bool) (base : OrdinaryObject) :
    OrdinaryObject → Prop
  | same : Rebases mutation reserved base base
  | mutated {next : OrdinaryObject} {verdict : Verdict} (unreserved : reserved mutation.key = false)
      (done : base.mutate mutation = .ok (verdict, next)) : Rebases mutation reserved base next

namespace Rebases

variable {mutation : OwnMutation} {reserved : Key → Bool} {base next : OrdinaryObject}

theorem mem (rebases : Rebases mutation reserved base next) {key : Key} (member : key ∈ next.keys) :
    key ∈ base.keys ∨ reserved key = false := by
  cases rebases with
  | same => exact .inl member
  | mutated unreserved done =>
    rcases (OrdinaryObject.rekeys_mutate done).mem member with old | new
    · exact .inl old
    · exact .inr (new ▸ unreserved)

theorem keepsPlace (rebases : Rebases mutation reserved base next) {key : Key}
    (spared : mutation ≠ .delete key) : KeepsPlace key base.keys next.keys := by
  cases rebases with
  | same => exact .refl key base.keys
  | mutated _ done => exact (OrdinaryObject.rekeys_mutate done).keepsPlace spared

theorem of_special
    (index : ∀ i, mutation.key = .index i → next = base)
    (length : mutation.key = .length → next = base)
    (passed : mutation.key.isSpecial = false →
      ∃ verdict, base.mutate mutation = .ok (verdict, next)) :
    Rebases mutation Key.isSpecial base next := by
  cases unreserved : mutation.key.isSpecial with
  | false =>
    obtain ⟨verdict, done⟩ := passed unreserved
    exact .mutated unreserved done
  | true =>
    have same : next = base := by
      cases about : mutation.key with
      | index i => exact index i about
      | named text =>
        rw [about] at unreserved
        exact length (about.trans (Key.eq_length unreserved))
    rw [same]
    exact .same

end Rebases

namespace ArrayObject

variable {array next : ArrayObject} {verdict : Verdict} {mutation : OwnMutation}

theorem base_place {index : Nat} {slot : Slot}
    (done : array.place index slot = .ok (verdict, next)) : next.base = array.base := by
  rw [place_eq] at done
  split at done
  next =>
    cases done
    rfl
  next =>
    split at done
    next => cases done
    next => split at done <;> cases done <;> rfl

theorem base_add_index {i : UInt32} {value : Value}
    (done : array.add (.index i) value = .ok (verdict, next)) : next.base = array.base := by
  simp only [add] at done
  split at done
  next => exact base_place done
  next =>
    cases done
    rfl

theorem base_defineLength {request : Request}
    (done : array.defineLength request = .ok (verdict, next)) : next.base = array.base := by
  rw [defineLength] at done
  split at done
  next =>
    cases done
    rfl
  next =>
    split at done
    next =>
      cases done
      rfl
    next value _ =>
      obtain ⟨length, _, defined⟩ := exists_of_map_eq_ok done
      cases defined
      exact array.base_setLength length

theorem base_mutate_index {i : UInt32} (about : mutation.key = .index i)
    (done : array.mutate mutation = .ok (verdict, next)) : next.base = array.base := by
  cases mutation with
  | write key value =>
    cases about
    simp only [mutate, write] at done
    split at done
    next => exact base_add_index done
    next =>
      split at done
      next =>
        cases done
        rfl
      next =>
        cases done
        rfl
  | add key value =>
    cases about
    exact base_add_index done
  | define key request =>
    cases about
    obtain ⟨resolution, _, done⟩ := exists_of_bind_eq_ok done
    cases resolution with
    | stored slot => exact base_place done
    | refused why =>
      cases done
      rfl
  | delete key =>
    cases about
    simp only [mutate, delete] at done
    split at done
    next =>
      cases done
      rfl
    next =>
      split at done
      next =>
        cases done
        rfl
      next =>
        cases done
        rfl

/-- A mutation of the length touches none of the further properties, unless it adds another one. -/
theorem base_mutate_length (fits : mutation.Fits Key.isSpecial) (about : mutation.key = .length)
    (done : array.mutate mutation = .ok (verdict, next)) : next.base = array.base := by
  cases mutation with
  | write key value =>
    cases about
    obtain ⟨length, _, done⟩ := exists_of_bind_eq_ok done
    have assigned : array.setLength length = (verdict, next) := Except.ok.inj done
    have same := array.base_setLength length
    rw [assigned] at same
    exact same
  | add key value =>
    cases about
    cases fits rfl
  | define key request =>
    cases about
    exact base_defineLength done
  | delete key =>
    cases about
    cases done
    rfl

theorem mutate_unreserved (unreserved : mutation.key.isSpecial = false) :
    array.mutate mutation =
      (array.base.mutate mutation).map fun ended => (ended.1, { array with base := ended.2 }) := by
  cases about : mutation.key with
  | index i =>
    rw [about] at unreserved
    cases unreserved
  | named text =>
    rw [about] at unreserved
    have notLength : (Key.named text).isLength = false := unreserved
    cases mutation with
    | write key value =>
      cases about
      simp only [mutate, write, notLength]
      rfl
    | add key value =>
      cases about
      rfl
    | define key request =>
      cases about
      simp only [mutate, define, notLength]
      rfl
    | delete key =>
      cases about
      simp only [mutate, delete, notLength]
      rfl

theorem rebases_mutate (fits : mutation.Fits Key.isSpecial)
    (done : array.mutate mutation = .ok (verdict, next)) :
    Rebases mutation Key.isSpecial array.base next.base := by
  apply Rebases.of_special
  case index => exact fun i about => base_mutate_index about done
  case length => exact fun about => base_mutate_length fits about done
  case passed =>
    intro unreserved
    rw [mutate_unreserved unreserved] at done
    obtain ⟨ended, mutated, same⟩ := exists_of_map_eq_ok done
    cases same
    exact ⟨ended.1, mutated⟩

end ArrayObject

namespace HostSequence

variable {elementType : ElementType} {view next : HostSequence elementType} {verdict : Verdict}
  {mutation : OwnMutation}

theorem base_store {index : Nat} {value : Value}
    (done : view.store index value = .ok (verdict, next)) : next.base = view.base := by
  obtain ⟨item, _, done⟩ := exists_of_bind_eq_ok done
  split at done
  next =>
    cases done
    rfl
  next => split at done <;> cases done <;> rfl

theorem base_resize {value : Value} (done : view.resize value = .ok (verdict, next)) :
    next.base = view.base := by
  obtain ⟨length, _, done⟩ := exists_of_bind_eq_ok done
  split at done
  next =>
    cases done
    rfl
  next => split at done <;> cases done <;> rfl

theorem base_mutate_index {i : UInt32} (about : mutation.key = .index i)
    (done : view.mutate mutation = .ok (verdict, next)) : next.base = view.base := by
  cases mutation with
  | write key value =>
    cases about
    exact base_store done
  | add key value =>
    cases about
    exact base_store done
  | define key request =>
    cases about
    simp only [mutate, define] at done
    split at done
    next =>
      cases done
      rfl
    next => exact base_store done
    next =>
      cases done
      rfl
  | delete key =>
    cases about
    cases done
    rfl

theorem base_mutate_length (fits : mutation.Fits Key.isSpecial) (about : mutation.key = .length)
    (done : view.mutate mutation = .ok (verdict, next)) : next.base = view.base := by
  cases mutation with
  | write key value =>
    cases about
    exact base_resize done
  | add key value =>
    cases about
    cases fits rfl
  | define key request =>
    cases about
    have isLength : Key.length.isLength = true := rfl
    simp only [mutate, define, Key.length] at done isLength
    rw [if_pos isLength] at done
    split at done
    next =>
      cases done
      rfl
    next =>
      split at done
      next => exact base_resize done
      next =>
        cases done
        rfl
  | delete key =>
    cases about
    cases done
    rfl

theorem mutate_unreserved (unreserved : mutation.key.isSpecial = false) :
    view.mutate mutation =
      (view.base.mutate mutation).map fun ended => (ended.1, { view with base := ended.2 }) := by
  cases about : mutation.key with
  | index i =>
    rw [about] at unreserved
    cases unreserved
  | named text =>
    rw [about] at unreserved
    have notLength : (Key.named text).isLength = false := unreserved
    cases mutation with
    | write key value =>
      cases about
      simp only [mutate, write, notLength]
      rfl
    | add key value =>
      cases about
      rfl
    | define key request =>
      cases about
      simp only [mutate, define, notLength]
      rfl
    | delete key =>
      cases about
      simp only [mutate, delete, notLength]
      rfl

theorem rebases_mutate (fits : mutation.Fits Key.isSpecial)
    (done : view.mutate mutation = .ok (verdict, next)) :
    Rebases mutation Key.isSpecial view.base next.base := by
  apply Rebases.of_special
  case index => exact fun i about => base_mutate_index about done
  case length => exact fun about => base_mutate_length fits about done
  case passed =>
    intro unreserved
    rw [mutate_unreserved unreserved] at done
    obtain ⟨ended, mutated, same⟩ := exists_of_map_eq_ok done
    cases same
    exact ⟨ended.1, mutated⟩

end HostSequence

namespace StringObject

variable {string next : StringObject} {verdict : Verdict} {mutation : OwnMutation}

theorem mutate_reserved (reserved : (string.fixed? mutation.key).isSome = true)
    (done : string.mutate mutation = .ok (verdict, next)) : next = string := by
  cases mutation with
  | write key value =>
    simp only [mutate, write, OwnMutation.key] at reserved done
    rw [if_pos reserved] at done
    cases done
    rfl
  | add key value =>
    simp only [mutate, add, OwnMutation.key] at reserved done
    rw [if_pos reserved] at done
    cases done
    rfl
  | define key request =>
    have defined : string.define key request = .ok (verdict, next) := done
    unfold define at defined
    obtain ⟨slot, fixed⟩ := Option.isSome_iff_exists.mp reserved
    have fixedHere : string.fixed? key = some slot := fixed
    rw [fixedHere] at defined
    obtain ⟨resolution, _, defined⟩ := exists_of_bind_eq_ok defined
    cases resolution <;> cases defined <;> rfl
  | delete key =>
    simp only [mutate, delete, OwnMutation.key] at reserved done
    rw [if_pos reserved] at done
    cases done
    rfl

theorem mutate_unreserved (unreserved : (string.fixed? mutation.key).isSome = false) :
    string.mutate mutation =
      (string.base.mutate mutation).map
        fun ended => (ended.1, { string with base := ended.2 }) := by
  cases mutation with
  | write key value =>
    simp only [mutate, write, OwnMutation.key] at unreserved ⊢
    rw [unreserved]
    rfl
  | add key value =>
    simp only [mutate, add, OwnMutation.key] at unreserved ⊢
    rw [unreserved]
    rfl
  | define key request =>
    simp only [mutate, define, OwnMutation.key, Option.isSome_eq_false_iff,
      Option.isNone_iff_eq_none] at unreserved ⊢
    rw [unreserved]
    rfl
  | delete key =>
    simp only [mutate, delete, OwnMutation.key] at unreserved ⊢
    rw [unreserved]
    rfl

theorem rebases_mutate (done : string.mutate mutation = .ok (verdict, next)) :
    next.value = string.value ∧
      Rebases mutation (fun key => (string.fixed? key).isSome) string.base next.base := by
  cases unreserved : (string.fixed? mutation.key).isSome with
  | false =>
    rw [mutate_unreserved unreserved] at done
    obtain ⟨ended, mutated, same⟩ := exists_of_map_eq_ok done
    cases same
    exact ⟨rfl, .mutated unreserved mutated⟩
  | true =>
    rw [mutate_reserved unreserved done]
    exact ⟨rfl, .same⟩

end StringObject

namespace HostMap

variable {keyType : KeyType} {elementType : ElementType} {view next : HostMap keyType elementType}
  {verdict : Verdict} {mutation : OwnMutation}

/-- What a mutation at a key that denotes a host key makes of a view. -/
inductive EditsEntry (view : HostMap keyType elementType) (hostKey : keyType.Carrier) :
    Verdict → HostMap keyType elementType → Prop
  | refused (why : Refusal) : EditsEntry view hostKey (.refused why) view
  | kept : EditsEntry view hostKey .accepted view
  | stored (element : elementType.Carrier)
      (room : view.growable = true ∨ view.entries.contains hostKey = true) :
      EditsEntry view hostKey .accepted
        { view with entries := view.entries.insert hostKey element }
  | erased : EditsEntry view hostKey .accepted
      { view with entries := view.entries.erase hostKey }

variable {hostKey : keyType.Carrier}

theorem EditsEntry.of_store {value : Value}
    (room : view.growable = true ∨ view.entries.contains hostKey = true)
    (done : view.store hostKey value = .ok (verdict, next)) :
    view.EditsEntry hostKey verdict next := by
  obtain ⟨element, _, done⟩ := exists_of_bind_eq_ok done
  cases done
  exact .stored element room

theorem editsEntry_define {key : Key} {request : Request}
    (denotes : keyType.ofKey? key = some hostKey)
    (done : view.define key request = .ok (verdict, next)) :
    view.EditsEntry hostKey verdict next := by
  simp only [define, denotes] at done
  split at done
  next why _ =>
    cases done
    exact .refused why
  next =>
    split at done
    next =>
      cases done
      exact .refused _
    next room =>
      have room : view.growable = true ∨ view.entries.contains hostKey = true := by
        cases growable : view.growable <;> simp_all
      split at done
      next => exact .of_store room done
      next =>
        split at done
        next =>
          cases done
          exact .kept
        next => exact .of_store room done

theorem editsEntry_mutate (denotes : keyType.ofKey? mutation.key = some hostKey)
    (done : view.mutate mutation = .ok (verdict, next)) :
    view.EditsEntry hostKey verdict next := by
  cases mutation with
  | write key value =>
    simp only [mutate, write, OwnMutation.key] at denotes done
    rw [denotes] at done
    simp only at done
    split at done
    next room => exact .of_store (by simpa using room) done
    next =>
      cases done
      exact .refused _
  | add key value =>
    simp only [mutate, add, OwnMutation.key] at denotes done
    rw [denotes] at done
    simp only at done
    split at done
    next growable => exact .of_store (.inl growable) done
    next =>
      cases done
      exact .refused _
  | define key request => exact editsEntry_define denotes done
  | delete key =>
    simp only [mutate, delete, OwnMutation.key] at denotes done
    rw [denotes] at done
    cases done
    exact .erased

theorem base_mutate_entry (denotes : keyType.ofKey? mutation.key = some hostKey)
    (done : view.mutate mutation = .ok (verdict, next)) : next.base = view.base := by
  cases editsEntry_mutate denotes done <;> rfl

theorem mutate_further (denotes : keyType.ofKey? mutation.key = none) :
    view.mutate mutation =
      (view.base.mutate mutation).map fun ended => (ended.1, { view with base := ended.2 }) := by
  cases mutation with
  | write key value =>
    simp only [mutate, write, OwnMutation.key] at denotes ⊢
    rw [denotes]
    rfl
  | add key value =>
    simp only [mutate, add, OwnMutation.key] at denotes ⊢
    rw [denotes]
    rfl
  | define key request =>
    simp only [mutate, define, OwnMutation.key] at denotes ⊢
    rw [denotes]
    rfl
  | delete key =>
    simp only [mutate, delete, OwnMutation.key] at denotes ⊢
    rw [denotes]
    rfl

theorem rebases_mutate (done : view.mutate mutation = .ok (verdict, next)) :
    Rebases mutation (fun _ => false) view.base next.base := by
  cases denotes : keyType.ofKey? mutation.key with
  | none =>
    rw [mutate_further denotes] at done
    obtain ⟨ended, mutated, same⟩ := exists_of_map_eq_ok done
    cases same
    exact .mutated rfl mutated
  | some hostKey =>
    rw [base_mutate_entry denotes done]
    exact .same

end HostMap

end ObjectModel
