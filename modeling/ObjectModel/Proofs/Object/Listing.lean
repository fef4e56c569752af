import ObjectModel.Proofs.Object.Rearrangement

/-!
# What a listing says about a key

The first entry for a key in the listing of an object tells whether the property found there is
enumerable, and there is an entry exactly if there is a property.  For that a further property may
well have the key of a length, which is listed before it, but not an index that the kind of the
object reserves.
-/

namespace ObjectModel

def Key.isIndex (key : Key) : Bool := key.index?.isSome

theorem Rebases.of_named {mutation : OwnMutation} {base next : OrdinaryObject}
    (index : ∀ i, mutation.key = .index i → next = base)
    (fitting : mutation.Fits Key.isSpecial → Rebases mutation Key.isSpecial base next)
    (added : ∀ key value, mutation = .add key value → key.isIndex = false →
      next = (base.add key value).2) : Rebases mutation Key.isIndex base next := by
  cases about : mutation.key with
  | index i =>
    rw [index i about]
    exact .same
  | named text =>
    have named : Key.isIndex mutation.key = false := by
      rw [about]
      rfl
    cases mutation with
    | add key value =>
      rw [added key value rfl named]
      exact .mutated named rfl
    | _ =>
      cases fitting trivial with
      | same => exact .same
      | mutated _ done => exact .mutated named done

theorem ArrayObject.rebases_named {array next : ArrayObject} {mutation : OwnMutation}
    {verdict : Verdict} (done : array.mutate mutation = .ok (verdict, next)) :
    Rebases mutation Key.isIndex array.base next.base := by
  apply Rebases.of_named
  case index => exact fun i about => base_mutate_index about done
  case fitting => exact fun fits => rebases_mutate fits done
  case added =>
    rintro (i | text) value rfl named
    · cases named
    · cases done
      rfl

theorem HostSequence.rebases_named {elementType : ElementType}
    {view next : HostSequence elementType} {mutation : OwnMutation} {verdict : Verdict}
    (done : view.mutate mutation = .ok (verdict, next)) :
    Rebases mutation Key.isIndex view.base next.base := by
  apply Rebases.of_named
  case index => exact fun i about => base_mutate_index about done
  case fitting => exact fun fits => rebases_mutate fits done
  case added =>
    rintro (i | text) value rfl named
    · cases named
    · cases done
      rfl

namespace Object

variable {object next : Object}

/-- Whether an array is well formed, and no further property has an index that the kind of the
object reserves. -/
structure Sound (object : Object) : Prop where
  wellFormed : object.WellFormed
  unindexed : ∀ key ∈ object.furtherKeys, key.isIndex = true → object.reserves key = false

theorem Tidy.sound (tidy : object.Tidy) : object.Sound where
  wellFormed := tidy.wellFormed
  unindexed key member _ := tidy.apart key member

theorem Rearranges.sound {spared : Key → Prop} (rearranges : object.Rearranges spared next)
    (sound : object.Sound) : next.Sound where
  wellFormed := rearranges.wellFormed sound.wellFormed
  unindexed key member isIndex := by
    rw [rearranges.reserves]
    rcases rearranges.further key member with old | unreserved
    · exact sound.unindexed key old isIndex
    · exact unreserved

theorem Sound.mutate (sound : object.Sound) {mutation : OwnMutation} {verdict : Verdict}
    (done : object.mutate mutation = .ok (verdict, next)) : next.Sound := by
  have wellFormed := sound.wellFormed.mutate done
  cases mutates_of_mutate done with
  | ordinary => exact ⟨wellFormed, fun _ _ _ => rfl⟩
  | function => exact ⟨wellFormed, fun _ _ _ => rfl⟩
  | map => exact ⟨wellFormed, fun _ _ _ => rfl⟩
  | array mutated =>
    refine ⟨wellFormed, fun key member isIndex => ?_⟩
    rcases (ArrayObject.rebases_named mutated).mem member with old | named
    · exact sound.unindexed key old isIndex
    · rw [named] at isIndex
      cases isIndex
  | sequence mutated =>
    refine ⟨wellFormed, fun key member isIndex => ?_⟩
    rcases (HostSequence.rebases_named mutated).mem member with old | named
    · exact sound.unindexed key old isIndex
    · rw [named] at isIndex
      cases isIndex
  | @string inner after mutated =>
    obtain ⟨sameText, rebases⟩ := StringObject.rebases_mutate mutated
    have sameFixed : after.fixed? = inner.fixed? := by
      funext key
      simp only [StringObject.fixed?, sameText]
    refine ⟨wellFormed, fun key member isIndex => ?_⟩
    simp only [reserves, sameFixed]
    exact (rebases.mem member).elim (fun old => sound.unindexed key old isIndex) id

theorem lookup_eq {entries : List (Key × Bool)} {key : Key} {found : Option Slot}
    (listed : ∀ enumerable, (key, enumerable) ∈ entries ↔
      ∃ slot, found = some slot ∧ slot.isEnumerable = enumerable) :
    entries.lookup key = found.map Slot.isEnumerable := by
  cases looked : entries.lookup key with
  | none =>
    cases found with
    | none => rfl
    | some slot =>
      have member := (listed slot.isEnumerable).mpr ⟨slot, rfl, rfl⟩
      have absent := List.lookup_eq_none_iff.mp looked _ member
      simp at absent
  | some enumerable =>
    obtain ⟨first, rest, split, _⟩ := List.lookup_eq_some_iff.mp looked
    have member : (key, enumerable) ∈ entries := by
      rw [split]
      exact List.mem_append_right _ List.mem_cons_self
    obtain ⟨slot, rfl, flag⟩ := (listed enumerable).mp member
    rw [Option.map_some, flag]

/-- The first entry for a key tells whether the property there is enumerable. -/
theorem Sound.lookup_ownKeys (sound : object.Sound) (notMap : object.isMap = false) (key : Key) :
    object.ownKeys.lookup key = (object.getOwn key).map Slot.isEnumerable := by
  have reserved (isReserved : object.reserves key = true) :
      object.reservedKeys.lookup key = (object.getOwn key).map Slot.isEnumerable :=
    lookup_eq (mem_reservedKeys sound.wellFormed isReserved)
  have further : object.base.ownKeys.lookup key = (object.base.getOwn key).map Slot.isEnumerable :=
    lookup_eq (object.base.mem_ownKeys key)
  rw [ownKeys_eq notMap, List.lookup_append]
  cases isReserved : object.reserves key with
  | false =>
    have absent : object.reservedKeys.lookup key = none := by
      apply List.lookup_eq_none_iff.mpr
      intro entry member
      have contradiction := reserves_of_mem member
      rw [bne_iff_ne]
      rintro rfl
      rw [contradiction] at isReserved
      cases isReserved
    rw [absent, Option.none_or, further, getOwn_of_unreserved notMap isReserved]
  | true =>
    rw [reserved isReserved]
    cases found : object.getOwn key with
    | some slot => rfl
    | none =>
      -- Only an index can be reserved without being found, and no further property has one.
      have isIndex : key.isIndex = true := by
        cases key with
        | index i => rfl
        | named text =>
          rw [unreserved_of_getOwn found (isLength_of_reserves isReserved)] at isReserved
          cases isReserved
      have absent : object.base.getOwn key = none := by
        apply Option.eq_none_iff_forall_ne_some.mpr
        intro slot held
        have member : key ∈ object.furtherKeys := OrderedMap.mem_keys_iff.mpr ⟨slot, held⟩
        rw [sound.unindexed key member isIndex] at isReserved
        cases isReserved
      rw [further, absent]
      rfl

end Object

end ObjectModel
