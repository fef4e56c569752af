import ObjectModel.Proofs.Host.KeyType
import ObjectModel.Proofs.Object.Frame

/-!
# Different keys of a view on a map

A mutation of a view on a map changes what is found at the keys that denote the same host key, and
nothing else.  So it changes nothing at any other key, unless a map with strings for keys takes the
two for the same string; then what is found at the one is always found at the other.
-/

namespace ObjectModel

/-- Whether two keys that are properly built are different and not taken for the same string. -/
structure KeyType.Separates (keyType : KeyType) (first second : Key) : Prop where
  builtFirst : first.Built
  builtSecond : second.Built
  different : first ≠ second
  unmerged : ¬keyType.Merges first second

theorem KeyType.Separates.ofKey?_ne {keyType : KeyType} {first second : Key}
    (separates : keyType.Separates first second) {hostKey : keyType.Carrier}
    (denotes : keyType.ofKey? first = some hostKey) : keyType.ofKey? second ≠ some hostKey := by
  intro denotesToo
  rcases eq_or_merges_of_ofKey? separates.builtFirst separates.builtSecond denotes denotesToo
    with same | merges
  · exact separates.different same
  · exact separates.unmerged merges

namespace HostMap

variable {keyType : KeyType} {elementType : ElementType} {view next : HostMap keyType elementType}
  {verdict : Verdict} {hostKey : keyType.Carrier} {key other : Key}

theorem getOwn_of_ofKey? (denotes : keyType.ofKey? key = some hostKey) :
    view.getOwn key =
      (view.entries.get? hostKey).map fun element => .bare (elementType.toValue element) := by
  simp only [getOwn, denotes]

theorem getOwn_of_ofKey?_eq_none (denotes : keyType.ofKey? key = none) :
    view.getOwn key = view.base.getOwn key := by
  simp only [getOwn, denotes]

theorem EditsEntry.getOwn_eq (edits : view.EditsEntry hostKey verdict next)
    (apart : keyType.ofKey? other ≠ some hostKey) : next.getOwn other = view.getOwn other := by
  cases denotes : keyType.ofKey? other with
  | none =>
    rw [getOwn_of_ofKey?_eq_none denotes, getOwn_of_ofKey?_eq_none denotes]
    cases edits <;> rfl
  | some otherKey =>
    have different : otherKey ≠ hostKey := by
      rintro rfl
      exact apart denotes
    rw [getOwn_of_ofKey? denotes, getOwn_of_ofKey? denotes]
    cases edits with
    | refused why => rfl
    | kept => rfl
    | stored element room => rw [OrderedMap.get?_insert, if_neg different]
    | erased => rw [OrderedMap.get?_erase, if_neg different]

/-- A mutation at one of two keys that are told apart leaves the property at the other. -/
theorem getOwn_mutate_of_separates {mutation : OwnMutation}
    (separates : keyType.Separates mutation.key other)
    (done : view.mutate mutation = .ok (verdict, next)) :
    next.getOwn other = view.getOwn other := by
  cases denotes : keyType.ofKey? mutation.key with
  | some hostKey => exact (editsEntry_mutate denotes done).getOwn_eq (separates.ofKey?_ne denotes)
  | none =>
    rw [mutate_further denotes] at done
    obtain ⟨⟨ended, base⟩, mutated, same⟩ := exists_of_map_eq_ok done
    cases same
    have frames := OrdinaryObject.frames_mutate mutated
    cases denotesOther : keyType.ofKey? other with
    | some otherKey => rw [getOwn_of_ofKey? denotesOther, getOwn_of_ofKey? denotesOther]
    | none =>
      rw [getOwn_of_ofKey?_eq_none denotesOther, getOwn_of_ofKey?_eq_none denotesOther]
      exact frames.property other separates.different.symm

theorem getOwn_eq_of_merges (merges : keyType.Merges key other) :
    view.getOwn key = view.getOwn other := by
  obtain ⟨rfl, shown⟩ := merges
  have denotes (named : Key) : KeyType.string.ofKey? named = some named.display := rfl
  rw [getOwn_of_ofKey? (denotes key), getOwn_of_ofKey? (denotes other)]
  exact congrArg (fun hostKey => (view.entries.get? hostKey).map _) shown

end HostMap

end ObjectModel
