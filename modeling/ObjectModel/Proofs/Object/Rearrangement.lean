import ObjectModel.Proofs.Object.Rekeying

/-!
# What becomes of the own keys

Whatever is done to an object, it reserves the same keys as before, and nothing that it reserves
comes among its further properties.  A further key keeps its place until it is deleted.
-/

namespace ObjectModel

namespace Object

variable {object next : Object} {spared : Key → Prop}

/-- What a change leaves of the own keys: what is reserved is reserved as before, only what is not
reserved may be a new further key, and the further keys that the change spares keep their places. -/
structure Rearranges (spared : Key → Prop) (object next : Object) : Prop where
  kind : next.kind = object.kind
  isMap : next.isMap = object.isMap
  reserves : next.reserves = object.reserves
  wellFormed : object.WellFormed → next.WellFormed
  further : ∀ key ∈ next.furtherKeys, key ∈ object.furtherKeys ∨ object.reserves key = false
  places : ∀ key, spared key → KeepsPlace key object.furtherKeys next.furtherKeys

namespace Rearranges

theorem refl (spared : Key → Prop) (object : Object) : object.Rearranges spared object where
  kind := rfl
  isMap := rfl
  reserves := rfl
  wellFormed := id
  further _ member := .inl member
  places key _ := .refl key _

theorem trans {first second third : Object} (early : first.Rearranges spared second)
    (late : second.Rearranges spared third) : first.Rearranges spared third where
  kind := late.kind.trans early.kind
  isMap := late.isMap.trans early.isMap
  reserves := late.reserves.trans early.reserves
  wellFormed wellFormed := late.wellFormed (early.wellFormed wellFormed)
  further key member := by
    rcases late.further key member with old | unreserved
    · exact early.further key old
    · rw [early.reserves] at unreserved
      exact .inr unreserved
  places key spares := (early.places key spares).trans (late.places key spares)

theorem tidy (rearranges : object.Rearranges spared next) (tidy : object.Tidy) : next.Tidy where
  wellFormed := rearranges.wellFormed tidy.wellFormed
  apart key member := by
    rw [rearranges.reserves]
    rcases rearranges.further key member with old | unreserved
    · exact tidy.apart key old
    · exact unreserved

theorem mono {fewer : Key → Prop} (rearranges : object.Rearranges spared next)
    (fewerSpared : ∀ key, fewer key → spared key) : object.Rearranges fewer next where
  kind := rearranges.kind
  isMap := rearranges.isMap
  reserves := rearranges.reserves
  wellFormed := rearranges.wellFormed
  further := rearranges.further
  places key spares := rearranges.places key (fewerSpared key spares)

theorem of_furtherKeys (kind : next.kind = object.kind) (isMap : next.isMap = object.isMap)
    (reserves : next.reserves = object.reserves)
    (wellFormed : object.WellFormed → next.WellFormed)
    (same : next.furtherKeys = object.furtherKeys) : object.Rearranges spared next where
  kind := kind
  isMap := isMap
  reserves := reserves
  wellFormed := wellFormed
  further key member := .inl (same ▸ member)
  places key _ := by
    rw [same]
    exact .refl key _

end Rearranges

/-- A mutation that fits rearranges an object, and spares all keys but one that it deletes. -/
theorem rearranges_mutate {mutation : OwnMutation} {verdict : Verdict}
    (fits : mutation.Fits object.reserves)
    (done : object.mutate mutation = .ok (verdict, next)) :
    object.Rearranges (fun key => mutation ≠ .delete key) next := by
  have rebased (isMap : next.isMap = object.isMap) (reserves : next.reserves = object.reserves)
      (rebases : Rebases mutation object.reserves object.base next.base) :
      object.Rearranges (fun key => mutation ≠ .delete key) next := by
    constructor
    case kind => exact kind_mutate done
    case isMap => exact isMap
    case reserves => exact reserves
    case wellFormed => exact fun wellFormed => wellFormed.mutate done
    case further => exact fun key member => rebases.mem member
    case places => exact fun key spared => rebases.keepsPlace spared
  cases mutates_of_mutate done with
  | ordinary mutated => exact rebased rfl rfl (.mutated rfl mutated)
  | function mutated => exact rebased rfl rfl (.mutated rfl mutated)
  | map mutated => exact rebased rfl rfl (HostMap.rebases_mutate mutated)
  | array mutated => exact rebased rfl rfl (ArrayObject.rebases_mutate fits mutated)
  | sequence mutated => exact rebased rfl rfl (HostSequence.rebases_mutate fits mutated)
  | string mutated =>
    obtain ⟨sameText, rebases⟩ := StringObject.rebases_mutate mutated
    refine rebased rfl ?_ rebases
    funext key
    simp only [reserves, StringObject.fixed?, sameText]

theorem not_mem_furtherKeys_of_delete (tidy : object.Tidy) (notMap : object.isMap = false)
    {key : Key} (gone : object.mutate (.delete key) = .ok (.accepted, next)) :
    key ∉ next.furtherKeys := by
  cases reserved : object.reserves key with
  | true =>
    intro member
    have fits : (OwnMutation.delete key).Fits object.reserves := trivial
    have rearranged := rearranges_mutate fits gone
    have unreserved := (rearranged.tidy tidy).apart key member
    rw [rearranged.reserves, reserved] at unreserved
    cases unreserved
  | false =>
    cases mutates_of_mutate gone with
    | ordinary mutated => exact OrdinaryObject.not_mem_keys_of_delete mutated
    | function mutated => exact OrdinaryObject.not_mem_keys_of_delete mutated
    | map => cases notMap
    | array mutated =>
      have unreserved : (OwnMutation.delete key).key.isSpecial = false := reserved
      rw [ArrayObject.mutate_unreserved unreserved] at mutated
      obtain ⟨⟨_, base⟩, passed, same⟩ := exists_of_map_eq_ok mutated
      cases same
      exact OrdinaryObject.not_mem_keys_of_delete passed
    | sequence mutated =>
      have unreserved : (OwnMutation.delete key).key.isSpecial = false := reserved
      rw [HostSequence.mutate_unreserved unreserved] at mutated
      obtain ⟨⟨_, base⟩, passed, same⟩ := exists_of_map_eq_ok mutated
      cases same
      exact OrdinaryObject.not_mem_keys_of_delete passed
    | @string inner _ mutated =>
      have unreserved : (inner.fixed? (OwnMutation.delete key).key).isSome = false := reserved
      rw [StringObject.mutate_unreserved unreserved] at mutated
      obtain ⟨⟨_, base⟩, passed, same⟩ := exists_of_map_eq_ok mutated
      cases same
      exact OrdinaryObject.not_mem_keys_of_delete passed

theorem rearranges_setPrototype (object : Object) (prototype : Option ObjectId) :
    object.Rearranges spared (object.setPrototype prototype) := by
  apply Rearranges.of_furtherKeys
  case kind => exact object.kind_setPrototype prototype
  case wellFormed => exact fun wellFormed => wellFormed.setPrototype prototype
  all_goals cases object <;> rfl

theorem rearranges_preventExtensions (object : Object) :
    object.Rearranges spared object.preventExtensions := by
  apply Rearranges.of_furtherKeys
  case kind => exact object.kind_preventExtensions
  case wellFormed => exact fun wellFormed => wellFormed.preventExtensions
  all_goals cases object <;> rfl

theorem unreserved_of_getOwn {key : Key} (absent : object.getOwn key = none)
    (isLength : key.isLength = true) : object.reserves key = false := by
  rw [Key.eq_length isLength] at absent ⊢
  cases object
  case array inner => cases absent
  case string inner => cases absent
  case sequence view => cases absent
  all_goals rfl

end Object

end ObjectModel
