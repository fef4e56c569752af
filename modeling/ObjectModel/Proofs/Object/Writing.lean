import ObjectModel.Proofs.Object.Filling

/-!
# Values that objects take

To add a property to an object that lacks it is to write it, unless the object is an array.  What an
object takes at a key it also takes after a value has been written, be it there or elsewhere.
-/

namespace ObjectModel

theorem Slot.isWritable_of_write? {slot written : Slot} {value : Value}
    (overwritten : slot.write? value = some written) : written.isWritable = true := by
  cases slot with
  | bare old =>
    cases overwritten
    rfl
  | described descriptor =>
    cases descriptor with
    | data old attributes =>
      obtain ⟨writable, same⟩ := Option.ite_none_right_eq_some.mp overwritten
      cases same
      exact writable
    | accessor => cases overwritten

namespace OrdinaryObject

variable {object next : OrdinaryObject} {key other : Key} {value : Value} {verdict : Verdict}

theorem add_eq_write (absent : object.getOwn key = none) :
    object.add key value = object.write key value := by
  unfold write
  rw [absent]

/-- Whether an ordinary object takes values at a key. -/
def Takes (object : OrdinaryObject) (key : Key) : Prop :=
  match object.getOwn key with
  | some slot => slot.isWritable = true
  | none => object.extensible = true

theorem write_eq_accepted_iff : (object.write key value).1 = .accepted ↔ object.Takes key := by
  unfold write Takes
  cases object.getOwn key with
  | none =>
    simp only [add]
    split
    next extensible => exact iff_of_true rfl extensible
    next closed =>
      refine iff_of_false ?_ closed
      rintro ⟨⟩
  | some slot =>
    simp only [← slot.isSome_write? value]
    cases slot.write? value with
    | some written => exact iff_of_true rfl rfl
    | none =>
      refine iff_of_false ?_ Bool.false_ne_true
      rintro ⟨⟩

theorem Takes.store (takes : object.Takes key) {slot : Slot} (writable : slot.isWritable = true) :
    (object.store other slot).Takes key := by
  unfold Takes at takes ⊢
  rw [getOwn_store]
  by_cases here : key = other
  · rw [if_pos here]
    exact writable
  · rw [if_neg here]
    exact takes

theorem Takes.write (takes : object.Takes key)
    (done : object.mutate (.write other value) = .ok (verdict, next)) : next.Takes key := by
  obtain rfl : (object.write other value).2 = next := congrArg Prod.snd (Except.ok.inj done)
  unfold OrdinaryObject.write
  split
  next =>
    unfold add
    split
    next => exact takes.store rfl
    next => exact takes
  next slot _ =>
    split
    next written overwritten => exact takes.store (Slot.isWritable_of_write? overwritten)
    next => exact takes

end OrdinaryObject

theorem Rebases.takes {reserved : Key → Bool} {base next : OrdinaryObject} {key other : Key}
    {value : Value} (rebases : Rebases (.write other value) reserved base next)
    (takes : base.Takes key) : next.Takes key := by
  cases rebases with
  | same => exact takes
  | mutated _ done => exact takes.write done

theorem exists_map_eq_accepted {α β : Type} {outcome : Except Fault (Verdict × α)} {wrap : α → β} :
    (∃ next, outcome.map (·.map id wrap) = .ok (.accepted, next)) ↔
      ∃ next, outcome = .ok (.accepted, next) := by
  constructor
  · rintro ⟨next, same⟩
    obtain ⟨⟨verdict, part⟩, done, same⟩ := exists_of_map_eq_ok same
    cases same
    exact ⟨part, done⟩
  · rintro ⟨part, rfl⟩
    exact ⟨wrap part, rfl⟩

theorem exists_ok_eq_accepted {α : Type} {ended : Verdict × α} :
    (∃ next, (.ok ended : Except Fault (Verdict × α)) = .ok (.accepted, next)) ↔
      ended.1 = .accepted := by
  constructor
  · rintro ⟨next, same⟩
    cases same
    rfl
  · intro accepted
    exact ⟨ended.2, congrArg Except.ok (Prod.ext accepted rfl)⟩

namespace Object

variable {object next : Object} {key other : Key} {value : Value} {verdict : Verdict}

/-- Whether an object takes a value at a key. -/
def Takes (object : Object) (key : Key) (value : Value) : Prop :=
  ∃ next, object.write key value = .ok (.accepted, next)

theorem takes_ordinary_iff {inner : OrdinaryObject} :
    (Object.ordinary inner).Takes key value ↔ inner.Takes key :=
  exists_map_eq_accepted.trans (exists_ok_eq_accepted.trans inner.write_eq_accepted_iff)

theorem takes_function_iff {base : OrdinaryObject} :
    (Object.function base).Takes key value ↔ base.Takes key :=
  exists_map_eq_accepted.trans (exists_ok_eq_accepted.trans base.write_eq_accepted_iff)

theorem takes_string_iff {string : StringObject} :
    (Object.string string).Takes key value ↔
      string.fixed? key = none ∧ string.base.Takes key := by
  refine exists_map_eq_accepted.trans (exists_ok_eq_accepted.trans ?_)
  unfold StringObject.write
  cases string.fixed? key with
  | some slot => exact iff_of_false nofun fun takes => nomatch takes.1
  | none => exact string.base.write_eq_accepted_iff.trans (and_iff_right rfl).symm

section Host

variable {keyType : KeyType} {elementType : ElementType} {view : HostMap keyType elementType}
  {sequence : HostSequence elementType}

theorem takes_entry_iff {hostKey : keyType.Carrier} (denotes : keyType.ofKey? key = some hostKey) :
    (Object.map view).Takes key value ↔
      (view.growable || view.entries.contains hostKey) = true ∧
        ∃ element, elementType.ofValue value = .ok element := by
  refine exists_map_eq_accepted.trans ?_
  simp only [HostMap.write, denotes]
  split
  next room =>
    rw [and_iff_right room]
    constructor
    · rintro ⟨next, stored⟩
      obtain ⟨element, converted, _⟩ := exists_of_bind_eq_ok stored
      exact ⟨element, converted⟩
    · rintro ⟨element, converted⟩
      rw [HostMap.store, converted]
      exact ⟨_, rfl⟩
  next full =>
    refine iff_of_false ?_ fun takes => full takes.1
    rintro ⟨_, refused⟩
    cases refused

theorem takes_further_iff (denotes : keyType.ofKey? key = none) :
    (Object.map view).Takes key value ↔ view.base.Takes key := by
  refine exists_map_eq_accepted.trans ?_
  simp only [HostMap.write, denotes]
  exact exists_ok_eq_accepted.trans view.base.write_eq_accepted_iff

theorem takes_item_iff {i : UInt32} :
    (Object.sequence sequence).Takes (.index i) value ↔
      (i.toNat < sequence.items.length ∨ sequence.resizable = true) ∧
        ∃ item, elementType.ofValue value = .ok item := by
  refine exists_map_eq_accepted.trans ?_
  simp only [HostSequence.write, HostSequence.store]
  constructor
  · rintro ⟨next, stored⟩
    obtain ⟨item, converted, stored⟩ := exists_of_bind_eq_ok stored
    refine ⟨?_, item, converted⟩
    split at stored
    next within => exact .inl within
    next =>
      split at stored
      next resizable => exact .inr resizable
      next => cases stored
  · rintro ⟨room, item, converted⟩
    rw [converted]
    by_cases within : i.toNat < sequence.items.length
    · exact ⟨_, if_pos within⟩
    · exact ⟨_, (if_neg within).trans (if_pos (room.resolve_left within))⟩

theorem takes_named_iff {text : Text} (notLength : (Key.named text).isLength = false) :
    (Object.sequence sequence).Takes (.named text) value ↔ sequence.base.Takes (.named text) := by
  refine exists_map_eq_accepted.trans ?_
  simp only [HostSequence.write, notLength]
  exact exists_ok_eq_accepted.trans sequence.base.write_eq_accepted_iff

end Host

theorem add_eq_write (notArray : object.kind ≠ .array) (absent : object.getOwn key = none) :
    object.add key value = object.write key value := by
  cases object with
  | ordinary inner => simp only [add, write, inner.add_eq_write absent]
  | function base => simp only [add, write, base.add_eq_write absent]
  | array => exact absurd rfl notArray
  | string inner =>
    obtain ⟨_, absentBase⟩ := Option.or_eq_none_iff.mp absent
    simp only [add, write, StringObject.add, StringObject.write,
      inner.base.add_eq_write absentBase]
  | @map keyType elementType view =>
    simp only [add, write, HostMap.add, HostMap.write]
    cases denotes : keyType.ofKey? key with
    | some hostKey =>
      simp only [getOwn, HostMap.getOwn, denotes, Option.map_eq_none_iff] at absent
      simp only [OrderedMap.contains, absent, Option.isSome_none, Bool.or_false]
    | none =>
      simp only [getOwn, HostMap.getOwn, denotes] at absent
      simp only [view.base.add_eq_write absent]
  | sequence view =>
    cases key with
    | index i => rfl
    | named text =>
      simp only [add, write, HostSequence.add, HostSequence.write]
      simp only [getOwn, HostSequence.getOwn] at absent
      split at absent
      next => cases absent
      next notLength => rw [if_neg notLength, view.base.add_eq_write absent]

theorem Takes.after_write {otherValue : Value} (takes : object.Takes key value)
    (notArray : object.kind ≠ .array) (notLength : key.isLength = false)
    (otherNotLength : other.isLength = false)
    (done : object.mutate (.write other otherValue) = .ok (verdict, next)) :
    next.Takes key value := by
  cases mutates_of_mutate done with
  | ordinary mutated =>
    rw [takes_ordinary_iff] at takes ⊢
    exact takes.write mutated
  | function mutated =>
    rw [takes_function_iff] at takes ⊢
    exact takes.write mutated
  | array => exact absurd rfl notArray
  | @string inner after mutated =>
    rw [takes_string_iff] at takes ⊢
    obtain ⟨sameText, rebases⟩ := StringObject.rebases_mutate mutated
    obtain ⟨text, base⟩ := after
    cases sameText
    exact ⟨takes.1, rebases.takes takes.2⟩
  | @map keyType elementType view after mutated =>
    obtain ⟨growable, grows⟩ := HostMap.grows_write mutated
    cases denotes : keyType.ofKey? key with
    | some hostKey =>
      rw [takes_entry_iff denotes] at takes ⊢
      refine ⟨?_, takes.2⟩
      cases grows with
      | map gone =>
        rw [growable, Bool.or_eq_true]
        refine (Bool.or_eq_true _ _ ▸ takes.1).imp id fun present => ?_
        exact Option.ne_none_iff_isSome.mp fun lost =>
          Option.ne_none_iff_isSome.mpr present (gone hostKey lost)
    | none =>
      rw [takes_further_iff denotes] at takes ⊢
      exact (HostMap.rebases_unless_denotes mutated).takes takes
  | sequence mutated =>
    obtain ⟨resizable, grows⟩ := HostSequence.grows_write otherNotLength mutated
    cases key with
    | index i =>
      rw [takes_item_iff] at takes ⊢
      refine ⟨?_, takes.2⟩
      cases grows with
      | sequence length =>
        exact takes.1.imp (fun within => Nat.lt_of_lt_of_le within length) resizable.trans
    | named text =>
      rw [takes_named_iff notLength] at takes ⊢
      exact (HostSequence.rebases_named mutated).takes takes

end Object

end ObjectModel
