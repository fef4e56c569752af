import ObjectModel.Table.Ascending

/-!
# Ascending maps by what they hold

A map is determined by the values found in it.  The values that satisfy a predicate are counted,
and each operation changes the count by exactly the values that it adds and takes away.  A map is
also its indices and its values, which stand in the order of the indices.
-/

namespace ObjectModel.AscendingMap

variable {ν : Type}

theorem find?_eq_some_iff {index : Nat} {value : ν} {entries : List (Nat × ν)}
    (ascending : entries.Pairwise fun a b => a.1 < b.1) :
    find? index entries = some value ↔ (index, value) ∈ entries := by
  induction entries with
  | nil => simp [find?]
  | cons head rest inductionHypothesis =>
    obtain ⟨headBelow, restAscending⟩ := List.pairwise_cons.mp ascending
    obtain ⟨place, held⟩ := head
    simp only [find?, List.mem_cons, Prod.mk.injEq]
    by_cases here : place = index
    · have away : (index, value) ∉ rest := by
        intro member
        have below := headBelow _ member
        simp only [here] at below
        exact Nat.lt_irrefl _ below
      simp [here, away, eq_comm]
    · simp [here, Ne.symm here, inductionHypothesis restAscending]

theorem get?_eq_some_iff {map : AscendingMap ν} {index : Nat} {value : ν} :
    map.get? index = some value ↔ (index, value) ∈ map.entries :=
  find?_eq_some_iff map.ascending

theorem ext_get? {left right : AscendingMap ν}
    (agree : ∀ index, left.get? index = right.get? index) : left = right := by
  have irreflexive : ∀ map : AscendingMap ν, map.entries.Nodup := by
    intro map
    refine map.ascending.imp ?_
    intro a b below equal
    rw [equal] at below
    exact Nat.lt_irrefl _ below
  have sameMembers : ∀ entry, entry ∈ left.entries ↔ entry ∈ right.entries := by
    intro entry
    rw [← get?_eq_some_iff, ← get?_eq_some_iff, agree]
  have permuted : left.entries.Perm right.entries :=
    (List.perm_ext_iff_of_nodup (irreflexive left) (irreflexive right)).mpr sameMembers
  have same : left.entries = right.entries := by
    refine List.Perm.eq_of_pairwise ?_ left.ascending right.ascending permuted
    intro a b _ _ before after
    exact absurd before (Nat.lt_asymm after)
  cases left
  cases right
  cases same
  rfl

theorem length_add_le {first bound : Nat} {entries : List (Nat × ν)}
    (ascending : entries.Pairwise fun a b => a.1 < b.1)
    (within : ∀ entry ∈ entries, first ≤ entry.1 ∧ entry.1 < bound) (le : first ≤ bound) :
    entries.length + first ≤ bound := by
  induction entries generalizing first with
  | nil => simpa using le
  | cons head rest inductionHypothesis =>
    obtain ⟨headBelow, restAscending⟩ := List.pairwise_cons.mp ascending
    have headWithin := within head List.mem_cons_self
    have restWithin : ∀ entry ∈ rest, head.1 + 1 ≤ entry.1 ∧ entry.1 < bound := by
      intro entry member
      exact ⟨headBelow entry member, (within entry (List.mem_cons_of_mem _ member)).2⟩
    have shorter := inductionHypothesis restAscending restWithin headWithin.2
    rw [List.length_cons]
    omega

theorem size_le {map : AscendingMap ν} {bound : Nat}
    (below : ∀ entry ∈ map.entries, entry.1 < bound) : map.size ≤ bound :=
  length_add_le map.ascending (fun entry member => ⟨Nat.zero_le _, below entry member⟩)
    (Nat.zero_le bound)

/-- How many values satisfy a predicate. -/
def tally (map : AscendingMap ν) (holds : ν → Bool) : Nat := map.values.countP holds

theorem tally_true (map : AscendingMap ν) : map.tally (fun _ => true) = map.size := by
  simp [tally, values, size]

theorem tally_le_size (map : AscendingMap ν) (holds : ν → Bool) :
    map.tally holds ≤ map.size := by
  rw [← tally_true]
  exact List.countP_mono_left fun _ _ _ => rfl

theorem exists_split_upsert {index : Nat} {entries : List (Nat × ν)}
    (ascending : entries.Pairwise fun a b => a.1 < b.1) (value : ν) :
    ∃ first rest,
      entries = first ++ (((find? index entries).map fun old => (index, old)).toList ++ rest) ∧
        upsert index value entries = first ++ (index, value) :: rest := by
  induction entries with
  | nil => exact ⟨[], [], rfl, rfl⟩
  | cons head rest inductionHypothesis =>
    obtain ⟨headBelow, restAscending⟩ := List.pairwise_cons.mp ascending
    simp only [upsert]
    split
    next before =>
      have absent : find? index (head :: rest) = none := by
        apply find?_eq_none
        intro entry member
        rcases List.mem_cons.mp member with rfl | later
        · exact Nat.ne_of_gt before
        · exact Nat.ne_of_gt (Nat.lt_trans before (headBelow entry later))
      rw [absent]
      exact ⟨[], head :: rest, rfl, rfl⟩
    next notBefore =>
      split
      next same =>
        refine ⟨[], rest, ?_, rfl⟩
        simp [find?, same]
      next different =>
        obtain ⟨first, others, split, replaced⟩ := inductionHypothesis restAscending
        refine ⟨head :: first, others, ?_, ?_⟩
        · rw [find?, if_neg (Ne.symm different), List.cons_append, ← split]
        · rw [replaced, List.cons_append]

theorem countP_upsert_add (holds : ν → Bool) (index : Nat) (value : ν)
    {entries : List (Nat × ν)} (ascending : entries.Pairwise fun a b => a.1 < b.1) :
    ((upsert index value entries).map Prod.snd).countP holds +
        ((find? index entries).any holds).toNat =
      (entries.map Prod.snd).countP holds + (holds value).toNat := by
  have countP_cons : ∀ held : ν, ∀ others : List ν,
      (held :: others).countP holds = others.countP holds + (holds held).toNat := by
    intro held others
    rw [List.countP_cons]
    cases holds held <;> rfl
  obtain ⟨first, rest, split, replaced⟩ := exists_split_upsert ascending value
  have before := congrArg (fun all => (all.map Prod.snd).countP holds) split
  rw [replaced]
  simp only [List.map_append, List.map_cons, List.countP_append, countP_cons] at before ⊢
  rw [before]
  cases find? index entries with
  | none =>
    simp only [Option.any_none, Option.map_none, Option.toList_none, List.map_nil, List.countP_nil,
      Bool.toNat_false]
    omega
  | some old =>
    simp only [Option.any_some, Option.map_some, Option.toList_some, List.map_cons, List.map_nil,
      countP_cons, List.countP_nil]
    omega

theorem tally_insert_add (map : AscendingMap ν) (holds : ν → Bool) (index : Nat) (value : ν) :
    (map.insert index value).tally holds + ((map.get? index).any holds).toNat =
      map.tally holds + (holds value).toNat :=
  countP_upsert_add holds index value map.ascending

theorem insert_erase (map : AscendingMap ν) (index : Nat) (value : ν) :
    (map.erase index).insert index value = map.insert index value := by
  refine ext_get? ?_
  intro wanted
  by_cases equal : wanted = index <;> simp [equal]

theorem insert_of_get? {map : AscendingMap ν} {index : Nat} {value : ν}
    (found : map.get? index = some value) : map.insert index value = map := by
  refine ext_get? ?_
  intro wanted
  by_cases equal : wanted = index
  · simp [equal, found]
  · simp [equal]

theorem erase_of_get? {map : AscendingMap ν} {index : Nat} (absent : map.get? index = none) :
    map.erase index = map := by
  refine ext_get? ?_
  intro wanted
  by_cases equal : wanted = index
  · simp [equal, absent]
  · simp [equal]

theorem erase_insert (map : AscendingMap ν) (index : Nat) (value : ν) :
    (map.insert index value).erase index = map.erase index := by
  refine ext_get? ?_
  intro wanted
  by_cases equal : wanted = index <;> simp [equal]

theorem erase_erase (map : AscendingMap ν) (index : Nat) :
    (map.erase index).erase index = map.erase index := by
  refine ext_get? ?_
  intro wanted
  by_cases equal : wanted = index <;> simp [equal]

/-- An entry is put between the others, in the place of an old one if there is one. -/
theorem exists_split_insert (map : AscendingMap ν) (index : Nat) (value : ν) :
    ∃ first rest,
      map.entries = first ++ (((map.get? index).map fun old => (index, old)).toList ++ rest) ∧
        (map.insert index value).entries = first ++ (index, value) :: rest :=
  exists_split_upsert map.ascending value

theorem tally_erase_add (map : AscendingMap ν) (holds : ν → Bool) (index : Nat) :
    (map.erase index).tally holds + ((map.get? index).any holds).toNat = map.tally holds := by
  cases found : map.get? index with
  | none =>
    rw [erase_of_get? found]
    rfl
  | some value =>
    have restored : (map.erase index).insert index value = map := by
      rw [insert_erase, insert_of_get? found]
    have added := tally_insert_add (map.erase index) holds index value
    rw [restored, get?_erase, if_pos rfl] at added
    exact added.symm

theorem tally_filterIndex_add (map : AscendingMap ν) (holds : ν → Bool) (keep : Nat → Bool) :
    (map.filterIndex keep).tally holds + (map.filterIndex fun index => !keep index).tally holds =
      map.tally holds := by
  simp only [tally, values, filterIndex, List.countP_map]
  rw [List.countP_eq_countP_filter_add map.entries (holds ∘ Prod.snd) fun entry => keep entry.1]

/-- The highest index, not below `target`, of a value that satisfies a predicate. -/
def lastFrom? (map : AscendingMap ν) (holds : ν → Bool) (target : Nat) : Option Nat :=
  (map.entries.reverse.find? fun entry => target ≤ entry.1 && holds entry.2).map Prod.fst

theorem lastFrom?_eq_none_iff {map : AscendingMap ν} {holds : ν → Bool} {target : Nat} :
    map.lastFrom? holds target = none ↔
      ∀ index value, target ≤ index → map.get? index = some value → holds value = false := by
  simp only [lastFrom?, Option.map_eq_none_iff, List.find?_eq_none, List.mem_reverse,
    get?_eq_some_iff, Prod.forall, Bool.and_eq_true, decide_eq_true_eq, not_and,
    Bool.not_eq_true]
  constructor
  · intro none index value above member
    exact none index value member above
  · intro none index value member above
    exact none index value above member

theorem lastFrom?_eq_some {map : AscendingMap ν} {holds : ν → Bool} {target index : Nat}
    (found : map.lastFrom? holds target = some index) :
    target ≤ index ∧ (∃ value, map.get? index = some value ∧ holds value = true) ∧
      ∀ other value, index < other → map.get? other = some value → holds value = false := by
  obtain ⟨⟨place, value⟩, located, rfl⟩ := Option.map_eq_some_iff.mp found
  obtain ⟨matched, beyond, before, split, unmatched⟩ :=
    List.find?_eq_some_iff_append.mp located
  rw [List.reverse_eq_iff] at split
  simp only [Bool.and_eq_true, decide_eq_true_eq] at matched
  refine ⟨matched.1, ⟨value, ?_, matched.2⟩, ?_⟩
  · rw [get?_eq_some_iff, split]
    simp
  · intro other held above member
    rw [get?_eq_some_iff] at member
    have ascending := map.ascending
    rw [split, List.reverse_append, List.reverse_cons, List.append_assoc] at ascending
    have notBefore : (other, held) ∉ before.reverse := by
      intro early
      have below := (List.pairwise_append.mp ascending).2.2 _ early (place, value) (by simp)
      exact absurd below (Nat.lt_asymm above)
    have late : (other, held) ∈ beyond := by
      rw [split] at member
      simp only [List.reverse_append, List.reverse_cons, List.append_assoc, List.mem_append,
        List.mem_cons, List.mem_reverse, Prod.mk.injEq, List.not_mem_nil, or_false] at member
      rcases member with early | (⟨same, _⟩ | late)
      · exact absurd (List.mem_reverse.mpr early) notBefore
      · exact absurd same (Nat.ne_of_gt above)
      · exact late
    have rejected := unmatched _ late
    have reached : target ≤ other := Nat.le_trans matched.1 (Nat.le_of_lt above)
    simpa [reached] using rejected

variable {map left right : AscendingMap ν}

theorem indices_withValues {values : List ν} (sameSize : values.length = map.size) :
    (map.withValues values).entries.map Prod.fst = map.entries.map Prod.fst := by
  refine List.map_fst_zip (Nat.le_of_eq ?_)
  rw [List.length_map, sameSize, size]

theorem values_withValues {values : List ν} (sameSize : values.length = map.size) :
    (map.withValues values).values = values := by
  refine List.map_snd_zip (Nat.le_of_eq ?_)
  rw [List.length_map, sameSize, size]

theorem length_values (map : AscendingMap ν) : map.values.length = map.size := List.length_map _

theorem ext_values (indices : left.entries.map Prod.fst = right.entries.map Prod.fst)
    (values : left.values = right.values) : left = right := by
  have same : left.entries = right.entries :=
    (List.zip_of_prod indices values).trans (List.zip_of_prod rfl rfl).symm
  cases left
  cases right
  cases same
  rfl

theorem withValues_values (map : AscendingMap ν) : map.withValues map.values = map :=
  ext_values (indices_withValues map.length_values) (values_withValues map.length_values)

theorem isSome_get?_iff {index : Nat} :
    (map.get? index).isSome ↔ index ∈ map.entries.map Prod.fst := by
  simp [Option.isSome_iff_exists, get?_eq_some_iff]

theorem countP_lt_getElem {indices : List Nat} (ascending : indices.Pairwise (· < ·))
    {position : Nat} (inside : position < indices.length) :
    indices.countP (fun index => index < indices[position]) = position := by
  induction indices generalizing position with
  | nil => exact absurd inside (Nat.not_lt_zero position)
  | cons head rest inductionHypothesis =>
    obtain ⟨headBelow, restAscending⟩ := List.pairwise_cons.mp ascending
    cases position with
    | zero =>
      rw [List.countP_eq_zero]
      intro index member
      rcases List.mem_cons.mp member with rfl | later
      · simp
      · simpa using Nat.le_of_lt (headBelow index later)
    | succ before =>
      have insideRest : before < rest.length := Nat.lt_of_succ_lt_succ inside
      have counted : decide (head < rest[before]) = true :=
        decide_eq_true (headBelow _ (List.getElem_mem insideRest))
      simp only [List.getElem_cons_succ]
      rw [List.countP_cons, if_pos counted, inductionHypothesis restAscending insideRest]

/-- How many indices below a bound have a value. -/
def rank (map : AscendingMap ν) (bound : Nat) : Nat :=
  (List.range bound).countP fun index => (map.get? index).isSome

theorem rank_eq (map : AscendingMap ν) (bound : Nat) :
    map.rank bound = (map.entries.map Prod.fst).countP fun index => index < bound := by
  have ascending : (map.entries.map Prod.fst).Pairwise (· < ·) :=
    List.pairwise_map.mpr map.ascending
  have permuted : ((List.range bound).filter fun index => (map.get? index).isSome).Perm
      ((map.entries.map Prod.fst).filter fun index => index < bound) := by
    rw [List.perm_ext_iff_of_nodup (List.nodup_range.filter _)
      ((ascending.imp Nat.ne_of_lt).filter _)]
    intro index
    rw [List.mem_filter, List.mem_filter, List.mem_range, isSome_get?_iff, decide_eq_true_eq,
      and_comm]
  rw [rank, List.countP_eq_length_filter, List.countP_eq_length_filter, permuted.length_eq]

/-- The values stand in the order of their indices. -/
theorem getElem?_values_eq_some_iff {position : Nat} {value : ν} :
    map.values[position]? = some value ↔
      ∃ index, map.get? index = some value ∧ map.rank index = position := by
  have ascending : (map.entries.map Prod.fst).Pairwise (· < ·) :=
    List.pairwise_map.mpr map.ascending
  have placed : ∀ {place index held}, map.entries[place]? = some (index, held) →
      map.rank index = place := by
    intro place index held found
    obtain ⟨inside, there⟩ := List.getElem?_eq_some_iff.mp found
    have insideIndices : place < (map.entries.map Prod.fst).length := by simpa using inside
    have indexed : (map.entries.map Prod.fst)[place] = index := by simp [there]
    have counted := countP_lt_getElem ascending insideIndices
    rw [indexed] at counted
    rw [rank_eq, counted]
  constructor
  · intro found
    rw [values, List.getElem?_map, Option.map_eq_some_iff] at found
    obtain ⟨⟨index, held⟩, found, rfl⟩ := found
    exact ⟨index, get?_eq_some_iff.mpr (List.mem_of_getElem? found), placed found⟩
  · rintro ⟨index, found, rfl⟩
    obtain ⟨place, there⟩ := List.mem_iff_getElem?.mp (get?_eq_some_iff.mp found)
    rw [placed there, values, List.getElem?_map, there]
    rfl

end ObjectModel.AscendingMap
