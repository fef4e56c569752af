/-!
Finite maps from natural numbers with their entries in ascending order.
-/

namespace ObjectModel

/-- A finite map from natural numbers with its entries in ascending order. -/
structure AscendingMap (ν : Type) where
  entries : List (Nat × ν)
  ascending : entries.Pairwise fun a b => a.1 < b.1

namespace AscendingMap

variable {ν : Type}

def empty : AscendingMap ν := ⟨[], .nil⟩

instance : Inhabited (AscendingMap ν) := ⟨empty⟩

def size (map : AscendingMap ν) : Nat := map.entries.length

def find? (index : Nat) : List (Nat × ν) → Option ν
  | [] => none
  | entry :: rest => if entry.1 = index then some entry.2 else find? index rest

def get? (map : AscendingMap ν) (index : Nat) : Option ν := find? index map.entries

/-- Ascending entries with the value at an index replaced or put in its place. -/
def upsert (index : Nat) (value : ν) : List (Nat × ν) → List (Nat × ν)
  | [] => [(index, value)]
  | entry :: rest =>
    if index < entry.1 then (index, value) :: entry :: rest
    else if index = entry.1 then (index, value) :: rest
    else entry :: upsert index value rest

theorem fst_of_mem_upsert {index : Nat} {value : ν} {entries : List (Nat × ν)} {entry : Nat × ν}
    (member : entry ∈ upsert index value entries) : entry.1 = index ∨ entry ∈ entries := by
  induction entries with
  | nil =>
    left
    rw [List.mem_singleton.mp member]
  | cons head rest inductionHypothesis =>
    simp only [upsert] at member
    split at member
    · rcases List.mem_cons.mp member with rfl | old
      · exact .inl rfl
      · exact .inr old
    · split at member
      · rcases List.mem_cons.mp member with rfl | old
        · exact .inl rfl
        · exact .inr (List.mem_cons_of_mem _ old)
      · rcases List.mem_cons.mp member with rfl | old
        · exact .inr List.mem_cons_self
        · exact (inductionHypothesis old).imp_right (List.mem_cons_of_mem _)

theorem ascending_upsert (index : Nat) (value : ν) {entries : List (Nat × ν)}
    (ascending : entries.Pairwise fun a b => a.1 < b.1) :
    (upsert index value entries).Pairwise fun a b => a.1 < b.1 := by
  induction entries with
  | nil => exact List.pairwise_singleton _ _
  | cons head rest inductionHypothesis =>
    obtain ⟨headBelow, restAscending⟩ := List.pairwise_cons.mp ascending
    simp only [upsert]
    split
    next before =>
      refine List.pairwise_cons.mpr ⟨?_, ascending⟩
      intro entry member
      rcases List.mem_cons.mp member with rfl | old
      · exact before
      · exact Nat.lt_trans before (headBelow entry old)
    next notBefore =>
      split
      next equal =>
        refine List.pairwise_cons.mpr ⟨?_, restAscending⟩
        intro entry member
        exact equal ▸ headBelow entry member
      next different =>
        refine List.pairwise_cons.mpr ⟨?_, inductionHypothesis restAscending⟩
        intro entry member
        rcases fst_of_mem_upsert member with equal | old
        · omega
        · exact headBelow entry old

def insert (map : AscendingMap ν) (index : Nat) (value : ν) : AscendingMap ν :=
  ⟨upsert index value map.entries, ascending_upsert index value map.ascending⟩

def filterIndex (map : AscendingMap ν) (keep : Nat → Bool) : AscendingMap ν :=
  ⟨map.entries.filter fun entry => keep entry.1, map.ascending.filter _⟩

def erase (map : AscendingMap ν) (index : Nat) : AscendingMap ν :=
  map.filterIndex fun other => other ≠ index

/-- Replace the values, in order, by the given ones; as many entries stay as there are values. -/
def withValues (map : AscendingMap ν) (values : List ν) : AscendingMap ν :=
  ⟨(map.entries.map Prod.fst).zip values, by
    have indices : (map.entries.map Prod.fst).Pairwise (· < ·) :=
      List.pairwise_map.mpr map.ascending
    rw [List.pairwise_iff_getElem] at indices ⊢
    intro i j inLeft inRight before
    simp only [List.getElem_zip]
    exact indices i j (by simp at inLeft; simp; omega) (by simp at inRight; simp; omega) before⟩

def values (map : AscendingMap ν) : List ν := map.entries.map Prod.snd

theorem find?_eq_none {index : Nat} {entries : List (Nat × ν)}
    (absent : ∀ entry ∈ entries, entry.1 ≠ index) : find? index entries = none := by
  induction entries with
  | nil => rfl
  | cons head rest inductionHypothesis =>
    simp only [find?, absent head List.mem_cons_self, if_false]
    exact inductionHypothesis fun entry member => absent entry (List.mem_cons_of_mem _ member)

theorem find?_upsert (index wanted : Nat) (value : ν) {entries : List (Nat × ν)}
    (ascending : entries.Pairwise fun a b => a.1 < b.1) :
    find? wanted (upsert index value entries) =
      if wanted = index then some value else find? wanted entries := by
  induction entries with
  | nil => simp [upsert, find?, eq_comm]
  | cons head rest inductionHypothesis =>
    obtain ⟨headBelow, restAscending⟩ := List.pairwise_cons.mp ascending
    simp only [upsert]
    split
    next before =>
      by_cases equal : wanted = index
      · simp [find?, equal]
      · simp [find?, equal, Ne.symm equal]
    next notBefore =>
      split
      next same =>
        by_cases equal : wanted = index
        · simp [find?, equal]
        · have away : ¬head.1 = wanted := by omega
          simp [find?, equal, away, Ne.symm equal]
      next different =>
        simp only [find?, inductionHypothesis restAscending]
        by_cases equal : wanted = index
        · have away : ¬head.1 = wanted := by omega
          simp [equal, Ne.symm different]
        · simp [equal]

@[simp]
theorem get?_empty (index : Nat) : (empty : AscendingMap ν).get? index = none := rfl

@[simp]
theorem get?_insert (map : AscendingMap ν) (index wanted : Nat) (value : ν) :
    (map.insert index value).get? wanted =
      if wanted = index then some value else map.get? wanted :=
  find?_upsert index wanted value map.ascending

theorem find?_filter (keep : Nat → Bool) (wanted : Nat) (entries : List (Nat × ν)) :
    find? wanted (entries.filter fun entry => keep entry.1) =
      if keep wanted then find? wanted entries else none := by
  induction entries with
  | nil => simp [find?]
  | cons head rest inductionHypothesis =>
    by_cases kept : keep head.1 = true
    · simp only [kept, List.filter_cons_of_pos, find?, inductionHypothesis]
      by_cases equal : head.1 = wanted
      · have keptWanted : keep wanted = true := equal ▸ kept
        simp [equal, keptWanted]
      · simp [equal]
    · simp only [kept, Bool.false_eq_true, not_false_eq_true, List.filter_cons_of_neg, find?,
        inductionHypothesis]
      by_cases equal : head.1 = wanted
      · have droppedWanted : ¬keep wanted = true := equal ▸ kept
        simp [droppedWanted]
      · simp [equal]

@[simp]
theorem get?_filterIndex (map : AscendingMap ν) (keep : Nat → Bool) (wanted : Nat) :
    (map.filterIndex keep).get? wanted = if keep wanted then map.get? wanted else none :=
  find?_filter keep wanted map.entries

@[simp]
theorem get?_erase (map : AscendingMap ν) (index wanted : Nat) :
    (map.erase index).get? wanted = if wanted = index then none else map.get? wanted := by
  simp only [erase, get?_filterIndex]
  by_cases equal : wanted = index <;> simp [equal]

end AscendingMap

end ObjectModel
