import ObjectModel.Number.Basic

/-!
The plain trees that values are exported to.

The entries of a map are sorted by key, and a key occurs once.
-/

namespace ObjectModel

inductive Tree
  | null
  | boolean (b : Bool)
  | integer (n : Int)
  | number (n : Number)
  | text (string : String)
  | list (items : List Tree)
  | map (entries : List (String × Tree))

namespace Tree

/-- The tree of a number that is kept as it is; NaN and the infinities have no plain form. -/
def ofFloat : Number → Tree
  | .finite negative magnitude fits => .number (.finite negative magnitude fits)
  | _ => .null

def ofNumber (n : Number) : Tree :=
  match n.toInt? with
  | some whole => if whole.natAbs ≤ exactBound then .integer whole else ofFloat n
  | none => ofFloat n

def upsert (key : String) (tree : Tree) : List (String × Tree) → List (String × Tree)
  | [] => [(key, tree)]
  | entry :: rest =>
    if key < entry.1 then (key, tree) :: entry :: rest
    else if key = entry.1 then (key, tree) :: rest
    else entry :: upsert key tree rest

/-- The map of the given entries; of entries with one key the last counts. -/
def ofEntries (entries : List (String × Tree)) : Tree :=
  .map (entries.foldl (fun sorted entry => upsert entry.1 entry.2 sorted) [])

end Tree

end ObjectModel
