import ObjectModel.Proofs.Host.KeyType
import ObjectModel.Proofs.Object.Rekeying

/-!
# The own keys of a view on a map

A view lists its entries at the property keys that show their host keys, and then its further
properties.  As long as these are at keys that denote no host keys, each listed key is read back and
none is listed twice.
-/

namespace ObjectModel

namespace HostMap

variable {keyType : KeyType} {elementType : ElementType} {view next : HostMap keyType elementType}
  {mutation : OwnMutation} {verdict : Verdict}

/-- Whether the further properties of a view are at keys that denote no host keys. -/
def Apart (view : HostMap keyType elementType) : Prop :=
  ∀ key ∈ view.base.keys, keyType.ofKey? key = none

/-- Whether a view lists each of its keys once, unless it has an entry with a host key that strays,
and has properties at all of them but those that show host keys that stray. -/
structure Readable (view : HostMap keyType elementType) : Prop where
  nodup : (∀ hostKey ∈ view.entries.keys, ¬keyType.Strays hostKey) →
    (view.ownKeys.map Prod.fst).Nodup
  found : ∀ key ∈ view.ownKeys.map Prod.fst,
    (∀ hostKey, keyType.Strays hostKey → key ≠ keyType.toKey hostKey) →
      (view.getOwn key).isSome = true

theorem map_fst_ownKeys (view : HostMap keyType elementType) :
    view.ownKeys.map Prod.fst = view.entries.keys.map keyType.toKey ++ view.base.keys := by
  simp only [ownKeys, OrdinaryObject.ownKeys, OrdinaryObject.keys, OrderedMap.keys, List.map_append,
    List.map_map]
  rfl

theorem getOwn_toKey {hostKey : keyType.Carrier} (stays : ¬keyType.Strays hostKey) :
    view.getOwn (keyType.toKey hostKey) =
      (view.entries.get? hostKey).map fun element => .bare (elementType.toValue element) := by
  simp only [getOwn, KeyType.ofKey?_toKey stays]

theorem Apart.getOwn_base (apart : view.Apart) {key : Key} (member : key ∈ view.base.keys) :
    view.getOwn key = view.base.getOwn key := by
  simp only [getOwn, apart key member]

/-- Only an entry whose host key strays can be missed, or be taken for a further property. -/
theorem Apart.readable (apart : view.Apart) : view.Readable where
  nodup := by
    intro stay
    rw [map_fst_ownKeys]
    refine List.nodup_append.mpr ⟨?_, view.base.properties.nodup, ?_⟩
    · apply List.pairwise_map.mpr
      apply view.entries.nodup.imp_of_mem
      intro first second memberFirst memberSecond apartKeys same
      have read := KeyType.ofKey?_toKey (stay first memberFirst)
      rw [same, KeyType.ofKey?_toKey (stay second memberSecond)] at read
      exact apartKeys (Option.some.inj read).symm
    · rintro _ entry key further rfl
      obtain ⟨hostKey, member, rfl⟩ := List.mem_map.mp entry
      have denotes := KeyType.ofKey?_toKey (stay hostKey member)
      rw [apart _ further] at denotes
      cases denotes
  found := by
    intro key member shown
    rw [map_fst_ownKeys] at member
    rcases List.mem_append.mp member with entry | further
    · obtain ⟨hostKey, memberHost, rfl⟩ := List.mem_map.mp entry
      obtain ⟨element, held⟩ := OrderedMap.mem_keys_iff.mp memberHost
      rw [getOwn_toKey fun strays => shown hostKey strays rfl, held]
      rfl
    · obtain ⟨slot, held⟩ := OrderedMap.mem_keys_iff.mp further
      rw [apart.getOwn_base further]
      exact Option.isSome_of_eq_some held

theorem rebases_unless_denotes (done : view.mutate mutation = .ok (verdict, next)) :
    Rebases mutation (fun key => (keyType.ofKey? key).isSome) view.base next.base := by
  cases denotes : keyType.ofKey? mutation.key with
  | none =>
    rw [mutate_further denotes] at done
    obtain ⟨ended, mutated, same⟩ := exists_of_map_eq_ok done
    cases same
    exact .mutated (congrArg Option.isSome denotes) mutated
  | some hostKey =>
    rw [base_mutate_entry denotes done]
    exact .same

end HostMap

end ObjectModel
