import Mathlib.Data.Nat.Find
import Mathlib.Order.Bounds.Basic
import ObjectModel.Proofs.Text.Units

/-!
# Searching in texts

A search compares a pattern with what stands at one position after another, and reads only where
there is enough of the text left.  It ends at the first position, or the last one, at which the
pattern occurs.  Bytes are compared instead of units where both texts are narrow, with the same
outcome.
-/

namespace ObjectModel

section Lists

variable {α β : Type} {pattern members : List α} {position count found : Nat}

/-- The part of a list with a length, from a position on, unless that reaches beyond the end. -/
def slice? (members : List α) (position length : Nat) : Option (List α) :=
  if position + length ≤ members.length then some ((members.drop position).take length) else none

/-- Whether a pattern stands in a list at a position. -/
def OccursAt (pattern members : List α) (position : Nat) : Prop :=
  slice? members position pattern.length = some pattern

/-- Compare a pattern with the slices at some positions, one after another, until one is the same.
There is no outcome if a slice is to be read that reaches beyond the end. -/
def compareAt [BEq α] (pattern members : List α) (positions : List Nat) : Option (Option Nat) :=
  positions.findM? fun position => (slice? members position pattern.length).map (· == pattern)

theorem occursAt_iff :
    OccursAt pattern members position ↔
      position ≤ members.length ∧ pattern <+: members.drop position := by
  rw [OccursAt, slice?, List.prefix_iff_eq_take]
  constructor
  · intro same
    split at same
    next inside => exact ⟨by omega, (Option.some.inj same).symm⟩
    next => cases same
  · rintro ⟨inside, same⟩
    have fits := congrArg List.length same
    rw [List.length_take, List.length_drop] at fits
    rw [if_pos (by omega), ← same]

theorem OccursAt.fits (occurs : OccursAt pattern members position) :
    position + pattern.length ≤ members.length := by
  rw [OccursAt, slice?] at occurs
  split at occurs
  next inside => exact inside
  next => cases occurs

variable [BEq α] [LawfulBEq α]

theorem isPrefixOf_drop_iff (inside : position ≤ members.length) :
    pattern.isPrefixOf (members.drop position) = true ↔ OccursAt pattern members position := by
  rw [occursAt_iff, List.isPrefixOf_iff_prefix, and_iff_right inside]

omit [LawfulBEq α] in
theorem firstMatch_drop (pattern : List α) (inside : position ≤ members.length) :
    firstMatch pattern position (members.drop position) =
      (List.range' position (members.length + 1 - position)).find? fun tried =>
        pattern.isPrefixOf (members.drop tried) := by
  induction remaining : members.length - position generalizing position with
  | zero =>
    have atEnd : members.drop position = [] := List.drop_of_length_le (by omega)
    have alone : members.length + 1 - position = 1 := by omega
    rw [alone, List.range'_one, List.find?_singleton, atEnd, firstMatch]
    cases pattern <;> rfl
  | succ remaining inductionHypothesis =>
    have next := @inductionHypothesis (position + 1) (by omega) (by omega)
    have more : members.length + 1 - position = (members.length + 1 - (position + 1)) + 1 := by
      omega
    have head := List.drop_eq_getElem_cons (show position < members.length by omega)
    rw [more, List.range'_succ, List.find?_cons, ← next, head, firstMatch]
    cases pattern.isPrefixOf (members[position] :: members.drop (position + 1)) <;> rfl

omit [LawfulBEq α] in
theorem lastMatch_drop (pattern : List α) (inside : position + count ≤ members.length + 1) :
    lastMatch pattern position count (members.drop position) =
      (List.range' position count).reverse.find? fun tried =>
        pattern.isPrefixOf (members.drop tried) := by
  induction count generalizing position with
  | zero =>
    cases members.drop position <;> rfl
  | succ count inductionHypothesis =>
    have later := @inductionHypothesis (position + 1) (by omega)
    rw [List.range'_succ, List.reverse_cons, List.find?_append, ← later, List.find?_singleton]
    rcases Nat.lt_or_ge position members.length with within | beyond
    · rw [List.drop_eq_getElem_cons within, lastMatch]
      cases lastMatch pattern (position + 1) count (members.drop (position + 1)) <;> rfl
    · have atEnd : members.drop position = [] := List.drop_of_length_le beyond
      have alone : count = 0 := by omega
      rw [atEnd, alone, lastMatch]
      cases members.drop (position + 1) <;> cases pattern <;> rfl

/-- Where all slices can be read, the outcome is the first position at which the pattern occurs. -/
theorem compareAt_eq {positions : List Nat}
    (inside : ∀ tried ∈ positions, tried + pattern.length ≤ members.length) :
    compareAt pattern members positions =
      some (positions.find? fun tried => pattern.isPrefixOf (members.drop tried)) := by
  induction positions with
  | nil => rfl
  | cons first others inductionHypothesis =>
    have fits := inside first List.mem_cons_self
    have later := inductionHypothesis fun tried member => inside tried (.tail first member)
    have same : ((members.drop first).take pattern.length == pattern) =
        pattern.isPrefixOf (members.drop first) := by
      rw [Bool.eq_iff_iff, beq_iff_eq, List.isPrefixOf_iff_prefix, List.prefix_iff_eq_take, eq_comm]
    rw [List.find?_cons, ← same]
    unfold compareAt at later ⊢
    rw [List.findM?, slice?, if_pos fits, Option.map_some]
    cases (members.drop first).take pattern.length == pattern
    · exact later
    · rfl

section Renaming

variable [BEq β] [LawfulBEq β] {rename : α → β} (injective : Function.Injective rename)

include injective

theorem isPrefixOf_map (pattern members : List α) :
    (pattern.map rename).isPrefixOf (members.map rename) = pattern.isPrefixOf members := by
  rw [Bool.eq_iff_iff, List.isPrefixOf_iff_prefix, List.isPrefixOf_iff_prefix,
    List.prefix_map_iff_of_injective injective]

theorem firstMatch_map (pattern members : List α) (position : Nat) :
    firstMatch (pattern.map rename) position (members.map rename) =
      firstMatch pattern position members := by
  induction members generalizing position with
  | nil => rw [List.map_nil, firstMatch, firstMatch, List.isEmpty_map]
  | cons first rest inductionHypothesis =>
    rw [List.map_cons, firstMatch, firstMatch, inductionHypothesis, ← List.map_cons,
      isPrefixOf_map injective]

theorem lastMatch_map (pattern members : List α) (position count : Nat) :
    lastMatch (pattern.map rename) position count (members.map rename) =
      lastMatch pattern position count members := by
  induction count generalizing position members with
  | zero => rfl
  | succ count inductionHypothesis =>
    cases members with
    | nil => rw [List.map_nil, lastMatch, lastMatch, List.isEmpty_map]
    | cons first rest =>
      rw [List.map_cons, lastMatch, lastMatch, inductionHypothesis, ← List.map_cons,
        isPrefixOf_map injective]

theorem compareAt_map (pattern members : List α) (positions : List Nat) :
    compareAt (pattern.map rename) (members.map rename) positions =
      compareAt pattern members positions := by
  have test (tried : Nat) :
      (slice? (members.map rename) tried (pattern.map rename).length).map
          (· == pattern.map rename) =
        (slice? members tried pattern.length).map (· == pattern) := by
    rw [slice?, slice?, List.length_map, List.length_map, ← List.map_drop, ← List.map_take]
    split
    next =>
      rw [Option.map_some, Option.map_some, Option.some_inj, Bool.eq_iff_iff, beq_iff_eq,
        beq_iff_eq, List.map_inj_right injective]
    next => rfl
  simp only [compareAt, test]

end Renaming

end Lists

theorem find?_range'_eq_some_iff {test : Nat → Bool} {start count found : Nat} :
    (List.range' start count).find? test = some found ↔
      IsLeast {i | start ≤ i ∧ i < start + count ∧ test i = true} found := by
  rw [List.find?_range'_eq_some, List.mem_range'_1]
  constructor
  · rintro ⟨passed, inside, earlier⟩
    refine ⟨⟨inside.1, inside.2, passed⟩, fun other ⟨above, _, passedOther⟩ => ?_⟩
    refine Nat.le_of_not_lt fun before => ?_
    have failed := earlier other above before
    rw [passedOther] at failed
    cases failed
  · rintro ⟨⟨above, below, passed⟩, least⟩
    refine ⟨passed, ⟨above, below⟩, fun other aboveOther before => ?_⟩
    rw [Bool.not_eq_true', Bool.eq_false_iff]
    intro passedOther
    have minimal := least ⟨aboveOther, Nat.lt_trans before below, passedOther⟩
    omega

theorem find?_reverse_range_eq_some_iff {test : Nat → Bool} {count found : Nat} :
    (List.range count).reverse.find? test = some found ↔
      IsGreatest {i | i < count ∧ test i = true} found := by
  induction count with
  | zero =>
    constructor
    · nofun
    · rintro ⟨⟨below, _⟩, _⟩
      exact absurd below (Nat.not_lt_zero found)
  | succ count inductionHypothesis =>
    rw [List.range_succ, List.reverse_append, List.reverse_singleton, List.singleton_append,
      List.find?_cons]
    cases passed : test count with
    | true =>
      constructor
      · intro isFound
        obtain rfl : count = found := Option.some.inj isFound
        exact ⟨⟨Nat.lt_succ_self count, passed⟩, fun other bounds => Nat.le_of_lt_succ bounds.1⟩
      · rintro ⟨⟨below, _⟩, greatest⟩
        have maximal := greatest ⟨Nat.lt_succ_self count, passed⟩
        exact congrArg some (by omega)
    | false =>
      have same : {i | i < count + 1 ∧ test i = true} = {i | i < count ∧ test i = true} := by
        ext other
        refine ⟨fun ⟨below, passedOther⟩ => ⟨?_, passedOther⟩, fun ⟨below, passedOther⟩ =>
          ⟨Nat.lt_succ_of_lt below, passedOther⟩⟩
        refine Nat.lt_of_le_of_ne (Nat.le_of_lt_succ below) fun equal => ?_
        rw [equal, passed] at passedOther
        cases passedOther
      rw [same, inductionHypothesis]

section Occurrences

variable {α : Type} [BEq α] [LawfulBEq α] {pattern members : List α} {start count found : Nat}

/-- The least position of a pattern is found among positions that cover all its occurrences. -/
theorem find?_isPrefixOf_range'
    (covered : ∀ i, start ≤ i → i + pattern.length ≤ members.length → i < start + count)
    (inside : ∀ i, start ≤ i → i < start + count → i ≤ members.length) :
    ((List.range' start count).find? fun tried => pattern.isPrefixOf (members.drop tried)) =
        some found ↔ IsLeast {i | start ≤ i ∧ OccursAt pattern members i} found := by
  rw [find?_range'_eq_some_iff]
  have same : {i | start ≤ i ∧ i < start + count ∧ pattern.isPrefixOf (members.drop i) = true} =
      {i | start ≤ i ∧ OccursAt pattern members i} := by
    ext i
    refine and_congr_right fun above => ?_
    constructor
    · rintro ⟨below, isPrefix⟩
      exact (isPrefixOf_drop_iff (inside i above below)).mp isPrefix
    · intro occurs
      have below := covered i above occurs.fits
      exact ⟨below, (isPrefixOf_drop_iff (inside i above below)).mpr occurs⟩
  rw [same]

theorem find?_isPrefixOf_reverse_range
    (covered : ∀ i, i ≤ start → i + pattern.length ≤ members.length → i < count)
    (inside : ∀ i, i < count → i ≤ start ∧ i ≤ members.length) :
    ((List.range count).reverse.find? fun tried => pattern.isPrefixOf (members.drop tried)) =
        some found ↔ IsGreatest {i | i ≤ start ∧ OccursAt pattern members i} found := by
  rw [find?_reverse_range_eq_some_iff]
  have same : {i | i < count ∧ pattern.isPrefixOf (members.drop i) = true} =
      {i | i ≤ start ∧ OccursAt pattern members i} := by
    ext i
    constructor
    · rintro ⟨below, isPrefix⟩
      exact ⟨(inside i below).1, (isPrefixOf_drop_iff (inside i below).2).mp isPrefix⟩
    · rintro ⟨below, occurs⟩
      have inCount := covered i below occurs.fits
      exact ⟨inCount, (isPrefixOf_drop_iff (inside i inCount).2).mpr occurs⟩
  rw [same]

end Occurrences

namespace Encoding

variable {text pattern : Encoding} {start found : Nat}

/-- Compare a pattern with a text at some positions, by bytes if both are narrow. -/
def compareAt (text pattern : Encoding) (positions : List Nat) : Option (Option Nat) :=
  match text, pattern with
  | .narrow bytes, .narrow wanted => ObjectModel.compareAt wanted bytes positions
  | _, _ => ObjectModel.compareAt pattern.units text.units positions

/-- The positions from `start` to the last one at which enough of the text is left for a pattern. -/
def positionsFrom (text pattern : Encoding) (start : Nat) : List Nat :=
  List.range' start (text.length + 1 - (start + pattern.length))

/-- The positions up to `start` at which enough of the text is left for a pattern, the last one
first. -/
def positionsUpTo (text pattern : Encoding) (start : Nat) : List Nat :=
  (List.range (min (start + 1) (text.length + 1 - pattern.length))).reverse

/-- Bytes are compared with the outcome that their units have. -/
theorem compareAt_eq_units (text pattern : Encoding) (positions : List Nat) :
    text.compareAt pattern positions =
      ObjectModel.compareAt pattern.units text.units positions := by
  unfold compareAt
  split
  next bytes wanted => exact (compareAt_map toUInt16_injective wanted bytes positions).symm
  next => rfl

theorem indexOf_eq_units (text pattern : Encoding) (start : Nat) :
    text.indexOf pattern start =
      if start + pattern.length ≤ text.length then
        firstMatch pattern.units start (text.units.drop start)
      else none := by
  unfold indexOf
  split
  next =>
    split
    next bytes wanted =>
      rw [units_narrow, units_narrow, ← List.map_drop, firstMatch_map toUInt16_injective]
    next => rfl
  next => rfl

theorem lastIndexOf_eq_units (text pattern : Encoding) (start : Nat) :
    text.lastIndexOf pattern start =
      if pattern.length ≤ text.length then
        lastMatch pattern.units 0 (min start (text.length - pattern.length) + 1) text.units
      else none := by
  unfold lastIndexOf
  split
  next =>
    split
    next bytes wanted => rw [units_narrow, units_narrow, lastMatch_map toUInt16_injective]
    next => rfl
  next => rfl

theorem not_occursAt {position : Nat} (short : text.length < position + pattern.length) :
    ¬OccursAt pattern.units text.units position := by
  intro occurs
  have fits := occurs.fits
  rw [length_units, length_units] at fits
  omega

theorem indexOf_eq_some_iff :
    text.indexOf pattern start = some found ↔
      IsLeast {i | start ≤ i ∧ OccursAt pattern.units text.units i} found := by
  rw [indexOf_eq_units]
  split
  next fits =>
    have within : start ≤ text.units.length := by
      rw [length_units]
      omega
    rw [firstMatch_drop pattern.units within]
    exact find?_isPrefixOf_range' (by omega) (by omega)
  next short =>
    refine ⟨nofun, fun least => ?_⟩
    have above := least.1.1
    exact absurd least.1.2 (not_occursAt (by omega))

theorem lastIndexOf_eq_some_iff :
    text.lastIndexOf pattern start = some found ↔
      IsGreatest {i | i ≤ start ∧ OccursAt pattern.units text.units i} found := by
  have lengths := And.intro text.length_units pattern.length_units
  rw [lastIndexOf_eq_units]
  split
  next fits =>
    have searched := @lastMatch_drop _ text.units 0
      (min start (text.length - pattern.length) + 1) _ pattern.units (by omega)
    rw [List.drop_zero, ← List.range_eq_range'] at searched
    rw [searched]
    exact find?_isPrefixOf_reverse_range (by omega) (by omega)
  next short =>
    refine ⟨nofun, fun greatest => ?_⟩
    exact absurd greatest.1.2 (not_occursAt (by omega))

theorem indexOf_eq_none_iff :
    text.indexOf pattern start = none ↔
      ¬∃ i, start ≤ i ∧ OccursAt pattern.units text.units i := by
  classical
  rw [Option.eq_none_iff_forall_ne_some]
  constructor
  · intro missing occurring
    refine missing (Nat.find occurring) (indexOf_eq_some_iff.mpr ⟨Nat.find_spec occurring, ?_⟩)
    exact fun _ occurs => Nat.find_min' occurring occurs
  · intro nowhere found isFound
    exact nowhere ⟨found, (indexOf_eq_some_iff.mp isFound).1⟩

theorem lastIndexOf_eq_none_iff :
    text.lastIndexOf pattern start = none ↔
      ¬∃ i, i ≤ start ∧ OccursAt pattern.units text.units i := by
  classical
  rw [Option.eq_none_iff_forall_ne_some]
  constructor
  · rintro missing ⟨i, below, occurs⟩
    have last := missing (Nat.findGreatest (OccursAt pattern.units text.units) start)
    refine last (lastIndexOf_eq_some_iff.mpr ⟨⟨Nat.findGreatest_le start, ?_⟩, ?_⟩)
    · exact Nat.findGreatest_spec below occurs
    · exact fun _ bounds => Nat.le_findGreatest bounds.1 bounds.2
  · intro nowhere found isFound
    exact nowhere ⟨found, (lastIndexOf_eq_some_iff.mp isFound).1⟩

/-- The search for the first occurrence reads within the text alone. -/
theorem compareAt_positionsFrom (text pattern : Encoding) (start : Nat) :
    text.compareAt pattern (text.positionsFrom pattern start) =
      some (text.indexOf pattern start) := by
  have lengths := And.intro text.length_units pattern.length_units
  have inside : ∀ tried ∈ text.positionsFrom pattern start,
      tried + pattern.units.length ≤ text.units.length := by
    intro tried member
    have bounds := List.mem_range'_1.mp member
    omega
  rw [compareAt_eq_units, compareAt_eq inside]
  refine congrArg some (Option.ext fun found => ?_)
  rw [indexOf_eq_some_iff]
  exact find?_isPrefixOf_range' (by omega) (by omega)

theorem compareAt_positionsUpTo (text pattern : Encoding) (start : Nat) :
    text.compareAt pattern (text.positionsUpTo pattern start) =
      some (text.lastIndexOf pattern start) := by
  have lengths := And.intro text.length_units pattern.length_units
  have inside : ∀ tried ∈ text.positionsUpTo pattern start,
      tried + pattern.units.length ≤ text.units.length := by
    intro tried member
    have bound := List.mem_range.mp (List.mem_reverse.mp member)
    omega
  rw [compareAt_eq_units, compareAt_eq inside]
  refine congrArg some (Option.ext fun found => ?_)
  rw [lastIndexOf_eq_some_iff]
  exact find?_isPrefixOf_reverse_range (by omega) (by omega)

/-- The search from `start` on finds the first position at which a pattern occurs, and the search
down from `start` the last one; if it occurs at none, they find none.  Only the units of both texts
matter.  To compare the pattern, by bytes or by units, at all positions in turn at which it fits has
the same outcome, and no slice that is read reaches beyond the end of the text. -/
theorem searches_exact (text pattern : Encoding) (start : Nat) :
    ((∀ position, text.indexOf pattern start = some position ↔
          IsLeast {i | start ≤ i ∧ OccursAt pattern.units text.units i} position) ∧
        (text.indexOf pattern start = none ↔
          ¬∃ i, start ≤ i ∧ OccursAt pattern.units text.units i)) ∧
      ((∀ position, text.lastIndexOf pattern start = some position ↔
          IsGreatest {i | i ≤ start ∧ OccursAt pattern.units text.units i} position) ∧
        (text.lastIndexOf pattern start = none ↔
          ¬∃ i, i ≤ start ∧ OccursAt pattern.units text.units i)) ∧
      (text.indexOf pattern start = (wide text.units).indexOf (wide pattern.units) start ∧
        text.lastIndexOf pattern start =
          (wide text.units).lastIndexOf (wide pattern.units) start) ∧
      text.compareAt pattern (text.positionsFrom pattern start) =
          some (text.indexOf pattern start) ∧
      text.compareAt pattern (text.positionsUpTo pattern start) =
          some (text.lastIndexOf pattern start) := by
  refine ⟨⟨fun _ => indexOf_eq_some_iff, indexOf_eq_none_iff⟩,
    ⟨fun _ => lastIndexOf_eq_some_iff, lastIndexOf_eq_none_iff⟩, ⟨?_, ?_⟩,
    compareAt_positionsFrom text pattern start, compareAt_positionsUpTo text pattern start⟩
  · refine Option.ext fun found => ?_
    rw [indexOf_eq_some_iff, indexOf_eq_some_iff, units_wide, units_wide]
  · refine Option.ext fun found => ?_
    rw [lastIndexOf_eq_some_iff, lastIndexOf_eq_some_iff, units_wide, units_wide]

/-- The pattern occurs twice and overlaps itself; nothing is found from beyond the last occurrence
on. -/
example :
    let text := narrow [0x61, 0x62, 0x61, 0x62, 0x61]
    let pattern := wide [0x61, 0x62, 0x61]
    text.indexOf pattern 0 = some 0 ∧ text.lastIndexOf pattern 9 = some 2 ∧
      text.indexOf pattern 3 = none ∧ text.indexOf empty 5 = some 5 ∧
      text.indexOf empty 6 = none := by decide

end Encoding

end ObjectModel
