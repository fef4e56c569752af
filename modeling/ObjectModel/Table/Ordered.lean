/-!
Finite maps that remember the order of insertion.

An entry keeps its place when it is overwritten and loses it when it is erased.
-/

namespace ObjectModel

/-- A finite map with its entries in the order of their first insertion. -/
structure OrderedMap (κ ν : Type) where
  entries : List (κ × ν)
  nodup : (entries.map Prod.fst).Nodup

namespace OrderedMap

variable {κ ν : Type}

def empty : OrderedMap κ ν := ⟨[], List.nodup_nil⟩

instance : Inhabited (OrderedMap κ ν) := ⟨empty⟩

def keys (map : OrderedMap κ ν) : List κ := map.entries.map Prod.fst

def size (map : OrderedMap κ ν) : Nat := map.entries.length

section Lookup

variable [DecidableEq κ]

def find? (key : κ) : List (κ × ν) → Option ν
  | [] => none
  | entry :: rest => if entry.1 = key then some entry.2 else find? key rest

def get? (map : OrderedMap κ ν) (key : κ) : Option ν := find? key map.entries

def contains (map : OrderedMap κ ν) (key : κ) : Bool := (map.get? key).isSome

def upsert (key : κ) (value : ν) : List (κ × ν) → List (κ × ν)
  | [] => [(key, value)]
  | entry :: rest =>
    if entry.1 = key then (key, value) :: rest else entry :: upsert key value rest

theorem map_fst_upsert (key : κ) (value : ν) (entries : List (κ × ν)) :
    (upsert key value entries).map Prod.fst =
      if key ∈ entries.map Prod.fst then entries.map Prod.fst
      else entries.map Prod.fst ++ [key] := by
  induction entries with
  | nil => simp [upsert]
  | cons entry rest inductionHypothesis =>
    simp only [upsert]
    split
    next equal => simp [equal]
    next different =>
      simp only [List.map_cons, inductionHypothesis, List.mem_cons]
      have away : ¬key = entry.1 := fun equal => different equal.symm
      by_cases member : key ∈ rest.map Prod.fst
      · rw [if_pos member, if_pos (.inr member)]
      · rw [if_neg member, if_neg (by simp [away, member])]
        rfl

theorem nodup_upsert (key : κ) (value : ν) {entries : List (κ × ν)}
    (nodup : (entries.map Prod.fst).Nodup) :
    ((upsert key value entries).map Prod.fst).Nodup := by
  rw [map_fst_upsert]
  split
  next => exact nodup
  next absent =>
    refine List.nodup_append.mpr ⟨nodup, by simp, ?_⟩
    intro a inKeys b isKey equal
    rw [List.mem_singleton.mp isKey] at equal
    exact absent (equal ▸ inKeys)

/-- Put a value at a key: an existing key keeps its place, a new one comes last. -/
def insert (map : OrderedMap κ ν) (key : κ) (value : ν) : OrderedMap κ ν :=
  ⟨upsert key value map.entries, nodup_upsert key value map.nodup⟩

def erase (map : OrderedMap κ ν) (key : κ) : OrderedMap κ ν :=
  ⟨map.entries.filter fun entry => entry.1 ≠ key,
    List.Nodup.sublist (List.filter_sublist.map Prod.fst) map.nodup⟩

/-- The map that arises by putting the given entries one after another. -/
def ofList (entries : List (κ × ν)) : OrderedMap κ ν :=
  entries.foldl (fun map entry => map.insert entry.1 entry.2) empty

theorem find?_upsert (key wanted : κ) (value : ν) (entries : List (κ × ν)) :
    find? wanted (upsert key value entries) =
      if wanted = key then some value else find? wanted entries := by
  induction entries with
  | nil =>
    by_cases equal : wanted = key
    · simp [upsert, find?, equal]
    · simp [upsert, find?, equal, Ne.symm equal]
  | cons entry rest inductionHypothesis =>
    simp only [upsert]
    split
    next here =>
      by_cases equal : wanted = key
      · simp [find?, equal]
      · have away : ¬entry.1 = wanted := fun same => equal (same.symm.trans here)
        simp [find?, equal, away, Ne.symm equal]
    next elsewhere =>
      simp only [find?, inductionHypothesis]
      by_cases equal : wanted = key
      · have away : ¬entry.1 = wanted := fun same => elsewhere (same.trans equal)
        simp [equal, elsewhere]
      · simp [equal]

theorem find?_filter (key wanted : κ) (entries : List (κ × ν)) :
    find? wanted (entries.filter fun entry => entry.1 ≠ key) =
      if wanted = key then none else find? wanted entries := by
  induction entries with
  | nil => simp [find?]
  | cons entry rest inductionHypothesis =>
    by_cases here : entry.1 = key
    · simp only [here, ne_eq, not_true_eq_false, decide_false, Bool.false_eq_true,
        not_false_eq_true, List.filter_cons_of_neg]
      rw [inductionHypothesis]
      by_cases equal : wanted = key
      · simp [equal]
      · simp [find?, equal, here, Ne.symm equal]
    · simp only [ne_eq, here, not_false_eq_true, decide_true, List.filter_cons_of_pos, find?]
      rw [inductionHypothesis]
      by_cases equal : wanted = key
      · have away : ¬entry.1 = wanted := fun same => here (same.trans equal)
        simp [equal, here]
      · simp [equal]

@[simp]
theorem get?_empty (key : κ) : (empty : OrderedMap κ ν).get? key = none := rfl

@[simp]
theorem get?_insert (map : OrderedMap κ ν) (key wanted : κ) (value : ν) :
    (map.insert key value).get? wanted = if wanted = key then some value else map.get? wanted :=
  find?_upsert key wanted value map.entries

@[simp]
theorem get?_erase (map : OrderedMap κ ν) (key wanted : κ) :
    (map.erase key).get? wanted = if wanted = key then none else map.get? wanted :=
  find?_filter key wanted map.entries

theorem keys_insert (map : OrderedMap κ ν) (key : κ) (value : ν) :
    (map.insert key value).keys =
      if key ∈ map.keys then map.keys else map.keys ++ [key] :=
  map_fst_upsert key value map.entries

end Lookup

end OrderedMap

end ObjectModel
