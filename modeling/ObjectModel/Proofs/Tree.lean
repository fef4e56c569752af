import ObjectModel.Key
import ObjectModel.Tree

/-!
# Maps of trees

The map of some entries has its keys in ascending order, each once, and at each the tree of the last
entry with that key.  Order and lookup determine it.
-/

namespace ObjectModel.Tree

/-- Whether the keys of entries ascend. -/
def Ascending (entries : List (String × Tree)) : Prop := entries.Pairwise fun a b => a.1 < b.1

variable {key text : String} {tree : Tree} {entries : List (String × Tree)}

theorem mem_upsert {entry : String × Tree} (member : entry ∈ upsert key tree entries) :
    entry = (key, tree) ∨ entry ∈ entries := by
  induction entries with
  | nil => exact .inl (List.mem_singleton.mp member)
  | cons head rest inductionHypothesis =>
    simp only [upsert] at member
    split at member
    next => exact List.mem_cons.mp member
    next =>
      split at member
      next => exact (List.mem_cons.mp member).imp_right (List.mem_cons_of_mem _)
      next =>
        rcases List.mem_cons.mp member with rfl | later
        · exact .inr List.mem_cons_self
        · exact (inductionHypothesis later).imp_right (List.mem_cons_of_mem _)

theorem Ascending.upsert (ascending : Ascending entries) (key : String) (tree : Tree) :
    Ascending (upsert key tree entries) := by
  induction entries with
  | nil => exact List.pairwise_singleton _ _
  | cons head rest inductionHypothesis =>
    obtain ⟨headBelow, restAscending⟩ := List.pairwise_cons.mp ascending
    simp only [Tree.upsert]
    split
    next below =>
      refine List.pairwise_cons.mpr ⟨fun entry member => ?_, ascending⟩
      rcases List.mem_cons.mp member with rfl | later
      · exact below
      · exact String.lt_trans below (headBelow entry later)
    next notBelow =>
      split
      next same =>
        cases same
        exact List.pairwise_cons.mpr ⟨headBelow, restAscending⟩
      next different =>
        have above : head.1 < key :=
          Std.lt_of_le_of_ne (String.not_lt.mp notBelow) fun same => different same.symm
        refine List.pairwise_cons.mpr ⟨fun entry member => ?_, inductionHypothesis restAscending⟩
        rcases mem_upsert member with rfl | old
        · exact above
        · exact headBelow entry old

theorem lookup_cons (key text : String) (tree : Tree) (entries : List (String × Tree)) :
    ((key, tree) :: entries).lookup text =
      if text = key then some tree else entries.lookup text := by
  rw [List.lookup_cons]
  split
  next here => rw [if_pos (beq_iff_eq.mp here)]
  next elsewhere => rw [if_neg (beq_eq_false_iff_ne.mp elsewhere)]

theorem lookup_upsert (key text : String) (tree : Tree) (entries : List (String × Tree)) :
    (upsert key tree entries).lookup text =
      if text = key then some tree else entries.lookup text := by
  induction entries with
  | nil => exact lookup_cons key text tree []
  | cons head rest inductionHypothesis =>
    obtain ⟨headKey, headTree⟩ := head
    simp only [upsert]
    split
    next => exact lookup_cons key text tree _
    next =>
      split
      next same =>
        cases same
        rw [lookup_cons, lookup_cons]
        split <;> rfl
      next different =>
        rw [lookup_cons, lookup_cons, inductionHypothesis]
        split
        next here => rw [if_neg fun same => different (same.symm.trans here)]
        next => rfl

theorem exists_ofEntries (entries : List (String × Tree)) :
    ∃ sorted, ofEntries entries = .map sorted ∧ Ascending sorted ∧
      ∀ text, sorted.lookup text = entries.reverse.lookup text := by
  have fold (before : List (String × Tree)) (ascending : Ascending before) :
      let sorted := entries.foldl (fun sorted entry => upsert entry.1 entry.2 sorted) before
      Ascending sorted ∧
        ∀ text, sorted.lookup text = (entries.reverse.lookup text).or (before.lookup text) := by
    induction entries generalizing before with
    | nil => exact ⟨ascending, fun _ => rfl⟩
    | cons entry rest inductionHypothesis =>
      obtain ⟨ascends, looked⟩ := inductionHypothesis _ (ascending.upsert entry.1 entry.2)
      refine ⟨ascends, fun text => ?_⟩
      rw [List.foldl_cons, looked, List.reverse_cons, List.lookup_append, Option.or_assoc,
        lookup_upsert]
      congr 1
      rw [lookup_cons, List.lookup_nil]
      split <;> rfl
  obtain ⟨ascending, looked⟩ := fold [] .nil
  refine ⟨_, rfl, ascending, fun text => ?_⟩
  rw [looked, List.lookup_nil, Option.or_none]

theorem Ascending.mem_iff (ascending : Ascending entries) :
    (text, tree) ∈ entries ↔ entries.lookup text = some tree := by
  induction entries with
  | nil => simp
  | cons head rest inductionHypothesis =>
    obtain ⟨headBelow, restAscending⟩ := List.pairwise_cons.mp ascending
    obtain ⟨headKey, headTree⟩ := head
    rw [lookup_cons, List.mem_cons]
    split
    next here =>
      cases here
      have away : (text, tree) ∉ rest := fun member =>
        String.lt_irrefl text (headBelow (text, tree) member)
      simp [away, eq_comm]
    next away =>
      rw [← inductionHypothesis restAscending]
      simp [away]

theorem Ascending.eq_of_lookup {others : List (String × Tree)} (ascending : Ascending entries)
    (ascendingOthers : Ascending others)
    (agree : ∀ text, entries.lookup text = others.lookup text) : entries = others := by
  have nodup {some : List (String × Tree)} (ascending : Ascending some) : some.Nodup := by
    refine ascending.imp fun below same => ?_
    rw [same] at below
    exact String.lt_irrefl _ below
  have permuted : entries.Perm others := by
    refine (List.perm_ext_iff_of_nodup (nodup ascending) (nodup ascendingOthers)).mpr ?_
    rintro ⟨text, tree⟩
    rw [ascending.mem_iff, ascendingOthers.mem_iff, agree]
  refine List.Perm.eq_of_pairwise ?_ ascending ascendingOthers permuted
  intro a b _ _ before after
  exact (String.lt_irrefl _ (String.lt_trans before after)).elim

/-- Whether entries are those of the map that has trees at property keys: their keys are the texts
of the property keys, and of property keys with one text the last counts. -/
structure Gathers (items : List (Key × Tree)) (entries : List (String × Tree)) : Prop where
  ascending : Ascending entries
  last : ∀ text, entries.lookup text =
    (items.reverse.find? fun item => item.1.display == text).map Prod.snd

theorem lookup_display (items : List (Key × Tree)) (text : String) :
    (items.map fun item => (item.1.display, item.2)).lookup text =
      (items.find? fun item => item.1.display == text).map Prod.snd := by
  induction items with
  | nil => rfl
  | cons item rest inductionHypothesis =>
    rw [List.map_cons, lookup_cons, List.find?_cons, inductionHypothesis]
    split
    next here => rw [beq_iff_eq.mpr here.symm]; rfl
    next elsewhere => rw [beq_eq_false_iff_ne.mpr (Ne.symm elsewhere)]

theorem exists_gathers (items : List (Key × Tree)) :
    ∃ entries, ofEntries (items.map fun item => (item.1.display, item.2)) = .map entries ∧
      Gathers items entries := by
  obtain ⟨entries, same, ascending, looked⟩ :=
    exists_ofEntries (items.map fun item => (item.1.display, item.2))
  refine ⟨entries, same, ascending, fun text => ?_⟩
  rw [looked, ← List.map_reverse, lookup_display]

theorem Gathers.unique {items : List (Key × Tree)} {others : List (String × Tree)}
    (gathers : Gathers items entries) (gathersOthers : Gathers items others) :
    entries = others := by
  apply gathers.ascending.eq_of_lookup gathersOthers.ascending
  intro text
  rw [gathers.last, gathersOthers.last]

end ObjectModel.Tree
