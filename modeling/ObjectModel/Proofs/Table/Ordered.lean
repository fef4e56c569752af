import ObjectModel.Table.Ordered

/-!
# Where insertion puts an entry

A new entry comes last, an old one is replaced where it is.  So a key keeps its place among the
others until it is erased: no key comes to stand before it.
-/

namespace ObjectModel

theorem pair_sublist_of_mem {κ : Type} {first second : κ} {keys : List κ}
    (memberFirst : first ∈ keys) (memberSecond : second ∈ keys) (apart : first ≠ second) :
    [first, second].Sublist keys ∨ [second, first].Sublist keys := by
  induction keys with
  | nil => cases memberFirst
  | cons key rest inductionHypothesis =>
    cases memberFirst with
    | head =>
      cases memberSecond with
      | head => exact absurd rfl apart
      | tail _ memberSecond =>
        exact .inl (.cons_cons _ (List.singleton_sublist.mpr memberSecond))
    | tail _ memberFirst =>
      cases memberSecond with
      | head => exact .inr (.cons_cons _ (List.singleton_sublist.mpr memberFirst))
      | tail _ memberSecond =>
        rcases inductionHypothesis memberFirst memberSecond with before | after
        · exact .inl (.cons _ before)
        · exact .inr (.cons _ after)

/-- Whether a key that is in a list is still in a later one, and nothing has come to stand before
it. -/
def KeepsPlace {κ : Type} (key : κ) (before after : List κ) : Prop :=
  key ∈ before →
    key ∈ after ∧ ∀ other, [other, key].Sublist after → [other, key].Sublist before

namespace KeepsPlace

variable {κ : Type} {key : κ} {first second third : List κ}

theorem refl (key : κ) (keys : List κ) : KeepsPlace key keys keys :=
  fun member => ⟨member, fun _ before => before⟩

theorem trans (early : KeepsPlace key first second) (late : KeepsPlace key second third) :
    KeepsPlace key first third := by
  intro member
  obtain ⟨memberSecond, earlier⟩ := early member
  obtain ⟨memberThird, later⟩ := late memberSecond
  exact ⟨memberThird, fun other before => earlier other (later other before)⟩

theorem append {added : κ} (absent : added ∉ first) : KeepsPlace key first (first ++ [added]) := by
  intro member
  refine ⟨List.mem_append_left _ member, ?_⟩
  intro other before
  obtain ⟨front, back, split, inside, last⟩ := List.sublist_append_iff.mp before
  cases last with
  | cons _ rest =>
    rw [List.sublist_nil.mp rest, List.append_nil] at split
    exact split ▸ inside
  | cons_cons _ rest =>
    rw [List.sublist_nil.mp rest] at split
    have same : key = added := by
      have lasts := congrArg List.getLast? split
      rw [List.getLast?_append] at lasts
      exact Option.some.inj lasts
    exact absurd (same ▸ member) absent

theorem filter {keep : κ → Bool} (kept : keep key = true) :
    KeepsPlace key first (first.filter keep) := by
  intro member
  exact ⟨List.mem_filter.mpr ⟨member, kept⟩, fun other before => before.trans List.filter_sublist⟩

end KeepsPlace

end ObjectModel

namespace ObjectModel.OrderedMap

variable {κ ν : Type} [DecidableEq κ]

theorem upsert_of_absent {key : κ} {entries : List (κ × ν)} (absent : find? key entries = none)
    (value : ν) : upsert key value entries = entries ++ [(key, value)] := by
  induction entries with
  | nil => rfl
  | cons head rest inductionHypothesis =>
    simp only [find?] at absent
    split at absent
    next => cases absent
    next different => rw [upsert, if_neg different, inductionHypothesis absent, List.cons_append]

theorem exists_split_upsert {key : κ} {old : ν} {entries : List (κ × ν)}
    (found : find? key entries = some old) (value : ν) :
    ∃ first rest, entries = first ++ (key, old) :: rest ∧
      upsert key value entries = first ++ (key, value) :: rest := by
  induction entries with
  | nil => cases found
  | cons head rest inductionHypothesis =>
    simp only [find?] at found
    split at found
    next here =>
      cases found
      refine ⟨[], rest, ?_, ?_⟩
      · rw [← here, List.nil_append]
      · rw [upsert, if_pos here, List.nil_append]
    next elsewhere =>
      obtain ⟨first, others, split, replaced⟩ := inductionHypothesis found
      refine ⟨head :: first, others, ?_, ?_⟩
      · rw [split, List.cons_append]
      · rw [upsert, if_neg elsewhere, replaced, List.cons_append]

theorem entries_insert_of_absent {map : OrderedMap κ ν} {key : κ}
    (absent : map.get? key = none) (value : ν) :
    (map.insert key value).entries = map.entries ++ [(key, value)] :=
  upsert_of_absent absent value

theorem exists_split_insert {map : OrderedMap κ ν} {key : κ} {old : ν}
    (found : map.get? key = some old) (value : ν) :
    ∃ first rest, map.entries = first ++ (key, old) :: rest ∧
      (map.insert key value).entries = first ++ (key, value) :: rest :=
  exists_split_upsert found value

theorem insert_of_get? {map : OrderedMap κ ν} {key : κ} {value : ν}
    (found : map.get? key = some value) : map.insert key value = map := by
  obtain ⟨first, rest, split, replaced⟩ := exists_split_insert found value
  have same : (map.insert key value).entries = map.entries := replaced.trans split.symm
  obtain ⟨entries, nodup⟩ := map
  exact (OrderedMap.mk.injEq ..).mpr same

theorem find?_eq_some_iff {key : κ} {value : ν} {entries : List (κ × ν)}
    (nodup : (entries.map Prod.fst).Nodup) :
    find? key entries = some value ↔ (key, value) ∈ entries := by
  induction entries with
  | nil => simp [find?]
  | cons head rest inductionHypothesis =>
    obtain ⟨fresh, nodupRest⟩ := List.nodup_cons.mp nodup
    obtain ⟨place, held⟩ := head
    simp only [find?, List.mem_cons, Prod.mk.injEq]
    by_cases here : place = key
    · have away : (key, value) ∉ rest := by
        intro member
        apply fresh
        rw [here]
        exact List.mem_map.mpr ⟨(key, value), member, rfl⟩
      simp [here, away, eq_comm]
    · simp [here, Ne.symm here, inductionHypothesis nodupRest]

theorem get?_eq_some_iff {map : OrderedMap κ ν} {key : κ} {value : ν} :
    map.get? key = some value ↔ (key, value) ∈ map.entries :=
  find?_eq_some_iff map.nodup

theorem mem_keys_iff {map : OrderedMap κ ν} {key : κ} :
    key ∈ map.keys ↔ ∃ value, map.get? key = some value := by
  simp only [get?_eq_some_iff, keys, List.mem_map, Prod.exists, exists_and_right, exists_eq_right]

theorem not_mem_keys {map : OrderedMap κ ν} {key : κ} (absent : map.get? key = none) :
    key ∉ map.keys := by
  intro member
  obtain ⟨value, found⟩ := mem_keys_iff.mp member
  rw [absent] at found
  cases found

theorem not_mem_keys_iff {map : OrderedMap κ ν} {key : κ} :
    key ∉ map.keys ↔ map.get? key = none := by
  refine ⟨fun lacks => ?_, not_mem_keys⟩
  rw [mem_keys_iff, ← Option.isSome_iff_exists] at lacks
  exact Option.not_isSome_iff_eq_none.mp lacks

theorem keys_erase (map : OrderedMap κ ν) (key : κ) :
    (map.erase key).keys = map.keys.filter fun other => other ≠ key := by
  unfold keys erase
  rw [List.filter_map]
  rfl

end ObjectModel.OrderedMap
