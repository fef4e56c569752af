import Mathlib.Logic.Function.Iterate
import Mathlib.Tactic.IntervalCases
import ObjectModel.Proofs.Verdict.Host
import ObjectModel.Proofs.Array.Sparse

/-!
# Buffers that grow

A buffer that is to hold more is doubled while it is small, and grows by a quarter again and again
when it is large.  A quarter is rounded down, so a round adds nothing to fewer than four slots: that
the rounds come to an end rests on the limit up to which capacities are doubled.  From four slots
on each round adds something, at most four rounds are necessary, and hardly more is allocated than
twice what there was or what is required.  No buffer of an array ever holds more than its capacity,
so what has to be allocated in addition is never negative.
-/

namespace ObjectModel

namespace Policy

/-- Growth by quarters that are rounded down, round after round, until what is required is reached:
the rounds that this takes, and the capacity at the end.  Growth that does not end has none. -/
inductive GrowsByQuarters (required : Nat) : (rounds capacity grown : Nat) → Prop
  | reached {capacity : Nat} (enough : required ≤ capacity) :
      GrowsByQuarters required 0 capacity capacity
  | round {rounds capacity grown : Nat} (short : capacity < required)
      (later : GrowsByQuarters required rounds (capacity + capacity / 4) grown) :
      GrowsByQuarters required (rounds + 1) capacity grown

/-- The capacities that a buffer gets which must hold what is required. -/
inductive Grows (policy : Policy) (capacity required : Nat) : (grown : Nat) → Prop
  | kept (enough : required ≤ capacity) : Grows policy capacity required capacity
  | exact (far : capacity * 2 < required) : Grows policy capacity required required
  | doubled (short : capacity < required) (near : required ≤ capacity * 2)
      (small : capacity < policy.denseDoublingLimit) : Grows policy capacity required (capacity * 2)
  | quartered {rounds grown : Nat} (short : capacity < required) (near : required ≤ capacity * 2)
      (large : policy.denseDoublingLimit ≤ capacity)
      (grows : GrowsByQuarters required rounds capacity grown) :
      Grows policy capacity required grown

variable {policy : Policy} {capacity required rounds grown : Nat}

namespace GrowsByQuarters

theorem required_le (grows : GrowsByQuarters required rounds capacity grown) :
    required ≤ grown := by
  induction grows with
  | reached enough => exact enough
  | round short later inductionHypothesis => exact inductionHypothesis

theorem capacity_le (grows : GrowsByQuarters required rounds capacity grown) :
    capacity ≤ grown := by
  induction grows with
  | reached enough => exact Nat.le_refl _
  | round short later inductionHypothesis => exact Nat.le_of_add_right_le inductionHypothesis

theorem le_max (grows : GrowsByQuarters required rounds capacity grown) :
    grown ≤ max capacity (required + required / 4) := by
  induction grows with
  | reached enough => exact Nat.le_max_left _ _
  | round short later inductionHypothesis => omega

theorem quarter_le (grows : GrowsByQuarters required rounds capacity grown)
    (short : capacity < required) : capacity + capacity / 4 ≤ grown := by
  cases grows with
  | reached enough => exact absurd short (Nat.not_lt_of_le enough)
  | round _ later => exact later.capacity_le

theorem iterate_lt (grows : GrowsByQuarters required rounds capacity grown) {earlier : Nat}
    (before : earlier < rounds) :
    (fun slots => slots + slots / 4)^[earlier] capacity < required := by
  induction grows generalizing earlier with
  | reached enough => exact absurd before (Nat.not_lt_zero earlier)
  | round short later inductionHypothesis =>
    cases earlier with
    | zero => exact short
    | succ earlier => exact inductionHypothesis (Nat.lt_of_succ_lt_succ before)

theorem rounds_le (grows : GrowsByQuarters required rounds capacity grown) (wide : 4 ≤ capacity)
    (near : required ≤ capacity * 2) : rounds ≤ 4 := by
  refine Nat.le_of_not_lt fun more => ?_
  have short := grows.iterate_lt more
  simp only [Function.iterate_succ, Function.comp_apply, Function.iterate_zero, id_eq] at short
  -- From ten slots on, what is lost by rounding does not matter.
  rcases Nat.lt_or_ge capacity 10 with few | many
  · interval_cases capacity <;> omega
  · omega

theorem unique {otherRounds other : Nat}
    (grows : GrowsByQuarters required rounds capacity grown)
    (others : GrowsByQuarters required otherRounds capacity other) : grown = other := by
  induction grows generalizing otherRounds with
  | reached enough =>
    cases others with
    | reached => rfl
    | round short => exact absurd short (Nat.not_lt_of_le enough)
  | round short later inductionHypothesis =>
    cases others with
    | reached enough => exact absurd short (Nat.not_lt_of_le enough)
    | round _ laterOther => exact inductionHypothesis laterOther

end GrowsByQuarters

/-- Growth by quarters ends if every round adds something. -/
theorem exists_growsByQuarters (required : Nat) (wide : 4 ≤ capacity) :
    ∃ rounds, GrowsByQuarters required rounds capacity (growByQuarters required capacity wide) := by
  induction capacity, wide using growByQuarters.induct required with
  | case1 capacity wide short inductionHypothesis =>
    rw [growByQuarters, if_pos short]
    obtain ⟨rounds, later⟩ := inductionHypothesis
    exact ⟨rounds + 1, .round short later⟩
  | case2 capacity wide enough =>
    rw [growByQuarters, if_neg enough]
    exact ⟨0, .reached (Nat.le_of_not_lt enough)⟩

/-- Growth by quarters does not end if a quarter is nothing. -/
theorem not_growsByQuarters (tiny : capacity < 4) (short : capacity < required) :
    ¬GrowsByQuarters required rounds capacity grown := by
  intro grows
  induction rounds with
  | zero =>
    cases grows with
    | reached enough => exact absurd short (Nat.not_lt_of_le enough)
  | succ rounds inductionHypothesis =>
    cases grows with
    | round _ later =>
      have same : capacity + capacity / 4 = capacity := by omega
      exact inductionHypothesis (same ▸ later)

theorem exists_growsByQuarters_iff :
    (∃ rounds grown, GrowsByQuarters required rounds capacity grown) ↔
      required ≤ capacity ∨ 4 ≤ capacity := by
  constructor
  · rintro ⟨rounds, grown, grows⟩
    by_contra stuck
    exact not_growsByQuarters (by omega) (by omega) grows
  · rintro (enough | wide)
    · exact ⟨0, capacity, .reached enough⟩
    · obtain ⟨rounds, grows⟩ := exists_growsByQuarters required wide
      exact ⟨rounds, _, grows⟩

namespace Grows

theorem unique {other : Nat} (grows : policy.Grows capacity required grown)
    (others : policy.Grows capacity required other) : grown = other := by
  cases grows with
  | kept enough => cases others <;> omega
  | exact far => cases others <;> omega
  | doubled short near small => cases others <;> omega
  | quartered short near large rounds =>
    cases others with
    | quartered _ _ _ otherRounds => exact rounds.unique otherRounds
    | _ => omega

theorem required_le (grows : policy.Grows capacity required grown) : required ≤ grown := by
  cases grows with
  | quartered _ _ _ rounds => exact rounds.required_le
  | _ => omega

theorem capacity_le (grows : policy.Grows capacity required grown) : capacity ≤ grown := by
  cases grows with
  | quartered _ _ _ rounds => exact rounds.capacity_le
  | _ => omega

theorem eq_capacity (grows : policy.Grows capacity required grown) (enough : required ≤ capacity) :
    grown = capacity :=
  grows.unique (.kept enough)

/-- A buffer that grows does so by a quarter at least, and to hardly more than it has to. -/
theorem bounds (grows : policy.Grows capacity required grown) (short : capacity < required) :
    capacity + capacity / 4 ≤ grown ∧ grown ≤ max required (2 * capacity) + required / 4 := by
  cases grows with
  | quartered _ near _ rounds =>
    have above := rounds.le_max
    exact ⟨rounds.quarter_le short, by omega⟩
  | _ => omega

end Grows

/-- Growth ends, since capacities are doubled while a quarter of them is nothing. -/
theorem grows_grownCapacity (policy : Policy) (capacity required : Nat) :
    policy.Grows capacity required (policy.grownCapacity capacity required) := by
  unfold grownCapacity
  split
  next enough => exact .kept enough
  next insufficient =>
    have short : capacity < required := Nat.lt_of_not_le insufficient
    split
    next far => exact .exact far
    next notFar =>
      have near : required ≤ capacity * 2 := Nat.le_of_not_lt notFar
      split
      next small => exact .doubled short near small
      next notSmall =>
        have large : policy.denseDoublingLimit ≤ capacity := Nat.le_of_not_lt notSmall
        obtain ⟨rounds, grows⟩ := exists_growsByQuarters required (policy.quartered.trans large)
        exact .quartered short near large grows

theorem le_grownCapacity (policy : Policy) (capacity required : Nat) :
    required ≤ policy.grownCapacity capacity required :=
  (policy.grows_grownCapacity capacity required).required_le

end Policy

namespace Elements

variable {elements : Elements}

/-- Whether a buffer holds no more slots than its capacity. -/
def Fits : Elements → Prop
  | .dense slots capacity => slots.length ≤ capacity
  | .sparse _ => True

namespace Fits

theorem clear (fits : elements.Fits) (index : Nat) : (elements.clear index).Fits := by
  cases elements with
  | dense slots capacity => exact (List.length_set).trans_le fits
  | sparse slots => trivial

theorem modify (fits : elements.Fits) (index : Nat) (slot : Slot) :
    (elements.modify index slot).Fits := by
  cases elements with
  | dense slots capacity => exact (List.length_set).trans_le fits
  | sparse slots => trivial

theorem sortSwap (fits : elements.Fits) (a b : Nat) : (elements.sortSwap a b).Fits := by
  cases elements with
  | dense slots capacity =>
    rw [Elements.sortSwap_dense]
    exact (length_exchange slots a b).trans_le fits
  | sparse slots =>
    rw [Elements.sortSwap_sparse]
    trivial

theorem dropFrom (fits : elements.Fits) (policy : Policy) (target : Nat) :
    (elements.dropFrom policy target).Fits := by
  cases elements with
  | sparse slots => trivial
  | dense slots capacity =>
    simp only [Elements.dropFrom]
    split
    next => exact fits
    next =>
      have held : slots.length ≤ capacity := fits
      simp only [Fits, List.length_take]
      split <;> omega

theorem put (fits : elements.Fits) (policy : Policy) (count index : Nat) (slot : Slot) :
    (elements.put policy count index slot).Fits := by
  cases elements with
  | sparse slots => trivial
  | dense slots capacity =>
    have lengthEq (beyond : slots.length ≤ index) :
        (extended slots index slot).length = index + 1 := by
      simp only [extended, List.length_append, List.length_replicate, List.length_singleton]
      omega
    simp only [Elements.put]
    split
    next => exact (List.length_set).trans_le fits
    next outside =>
      have beyond : slots.length ≤ index := Nat.le_of_not_lt outside
      split
      next room => exact (lengthEq beyond).trans_le room
      next =>
        split
        next => trivial
        next => exact (lengthEq beyond).trans_le (policy.le_grownCapacity capacity (index + 1))

end Fits

end Elements

namespace ArrayObject

variable {array next : ArrayObject}

theorem fits_setLength (fits : array.elements.Fits) (length : Nat) :
    (array.setLength length).2.elements.Fits := by
  obtain ⟨bound, same | cut⟩ := array.exists_setLength_eq length
  · rw [same]
    exact fits
  · rw [cut]
    exact fits.dropFrom array.policy bound

theorem Edits.fits {suited : Prop} (edits : Edits suited array next)
    (fits : array.elements.Fits) : next.elements.Fits := by
  induction edits with
  | trans before after first second => exact second (first fits)
  | store inside succeeds => exact (fits.clear _).put _ _ _ _
  | modify found overwritten => exact fits.modify _ _
  | remove found configurable => exact fits.clear _
  | setLength possible => exact fits_setLength fits _
  | _ => exact fits

/-- An array never holds more slots in its buffer than that has been made for. -/
theorem Reachable.fits (reachable : Reachable array) : array.elements.Fits := by
  induction reachable with
  | new prototype policy => exact Nat.le_refl 0
  | ofValues built =>
    simp only [ArrayObject.ofValues] at built
    split at built <;> cases built
    exact (List.length_map _).le
  | ofLength built =>
    simp only [ArrayObject.ofLength] at built
    split at built <;> cases built
    exact Nat.le_refl 0
  | mutated before mutation inductionHypothesis =>
    cases mutation with
    | own mutation strict =>
      rcases after_own _ mutation strict with same | ⟨verdict, done⟩
      · rw [same]
        exact inductionHypothesis
      · exact (edits_mutate done).fits inductionHypothesis
    | setLength length strict =>
      rw [after_setLength]
      exact fits_setLength inductionHypothesis length.toNat
    | preventExtensions => exact inductionHypothesis
    | setPrototype prototype => exact inductionHypothesis
    | sortSwap a b => exact inductionHypothesis.sortSwap a.toNat b.toNat

end ArrayObject

namespace Policy

/-- Since all capacities below four are doubled, growth ends with exactly one capacity, after at
most four rounds by quarters, which need not end for other capacities.  It is the old capacity if
that is enough, and else at least a quarter larger and not much larger than twice the old one or
what is required, so that no number is too large for 64 bits.  The slots that an array or a host
sequence has already are never more than the new capacity. -/
theorem grows_geometrically (policy : Policy) (capacity required : Nat) :
    ((∀ grown, policy.Grows capacity required grown ↔
          grown = policy.grownCapacity capacity required) ∧
        (∀ {rounds grown}, policy.denseDoublingLimit ≤ capacity → required ≤ capacity * 2 →
          GrowsByQuarters required rounds capacity grown → rounds ≤ 4) ∧
        ((∃ rounds grown, GrowsByQuarters required rounds capacity grown) ↔
          required ≤ capacity ∨ 4 ≤ capacity)) ∧
      (required ≤ policy.grownCapacity capacity required ∧
        capacity ≤ policy.grownCapacity capacity required) ∧
      (required ≤ capacity → policy.grownCapacity capacity required = capacity) ∧
      (capacity < required →
        capacity + capacity / 4 ≤ policy.grownCapacity capacity required ∧
          policy.grownCapacity capacity required ≤ max required (2 * capacity) + required / 4) ∧
      (capacity ≤ 2 ^ 32 → required ≤ 2 ^ 32 →
        policy.grownCapacity capacity required < 2 ^ 64) ∧
      (∀ {array : ArrayObject} {slots}, array.Reachable → array.elements = .dense slots capacity →
        slots.length ≤ policy.grownCapacity capacity required) ∧
      ∀ {elementType} (view : HostSequence elementType) {index}, view.items.length ≤ index →
        view.items.length ≤ policy.grownCapacity capacity (index + 1) := by
  have grows := policy.grows_grownCapacity capacity required
  refine ⟨⟨fun grown => ⟨fun others => others.unique grows, ?_⟩, ?_, exists_growsByQuarters_iff⟩,
    ⟨grows.required_le, grows.capacity_le⟩, grows.eq_capacity, grows.bounds, ?_, ?_, ?_⟩
  · rintro rfl
    exact grows
  · exact fun large near rounds => rounds.rounds_le (policy.quartered.trans large) near
  · intro smallCapacity smallRequired
    rcases Nat.lt_or_ge capacity required with short | enough
    · have above := (grows.bounds short).2
      omega
    · rw [grows.eq_capacity enough]
      omega
  · intro array slots reachable stored
    have fits := reachable.fits
    rw [stored] at fits
    exact Nat.le_trans fits grows.capacity_le
  · intro elementType view index beyond
    have reached := (policy.grows_grownCapacity capacity (index + 1)).required_le
    omega

/-- The tuning that doubles no more capacities than it must. -/
def hasty : Policy := { denseDoublingLimit := 4 }

/-- An array of six elements gets one more at the index 8.  Its buffer grows in three rounds, to 7,
8 and 10 slots. -/
theorem grows_geometrically_hasty :
    GrowsByQuarters 9 3 6 10 ∧ hasty.grownCapacity 6 9 = 10 ∧
      ∃ array slots, ArrayObject.ofValues (List.replicate 6 .null) none hasty = .ok array ∧
        array.elements = .dense slots 6 ∧ slots.length ≤ hasty.grownCapacity 6 9 := by
  have rounds : GrowsByQuarters 9 3 6 10 :=
    .round (by decide) (.round (by decide) (.round (by decide) (.reached (by decide))))
  obtain ⟨⟨unique, _⟩, _, _, _, _, held, _⟩ := hasty.grows_geometrically 6 9
  obtain ⟨array, slots, built, stored⟩ : ∃ array slots,
      ArrayObject.ofValues (List.replicate 6 .null) none hasty = .ok array ∧
        array.elements = .dense slots 6 := ⟨_, _, rfl, rfl⟩
  refine ⟨rounds, ?_, array, slots, built, stored, held (.ofValues built) stored⟩
  exact ((unique 10).mp (.quartered (by decide) (by decide) (by decide) rounds)).symm

end Policy

end ObjectModel
