import ObjectModel.Proofs.Array.Atomicity

/-!
# Assigning the length of an array

A length that is already there is accepted, and any other one refused if the length is read-only.
Otherwise the array is resized to it, or to the least length that covers the elements that must
stay.  To write the property `length`, or to define its value, is to assign the length.
-/

namespace ObjectModel

/-- A value that is no array length is out of range, for whatever reason. -/
theorem eq_of_toArrayLength_eq_error {value : Value} {fault : Fault}
    (failed : toArrayLength value = .error fault) : fault = .range .arrayLength := by
  unfold toArrayLength at failed
  split at failed
  next =>
    split at failed
    next => cases failed
    next => exact (Except.error.inj failed).symm
  next => exact (Except.error.inj failed).symm

/-- What the definition of a length answers if its assignment is answered by a verdict. -/
def Verdict.ofRedefinition : Verdict → Verdict
  | .accepted => .accepted
  | .refused _ => .refused (.redefinition .length)

theorem Verdict.ofRedefinition_eq_accepted_iff {verdict : Verdict} :
    verdict.ofRedefinition = .accepted ↔ verdict = .accepted := by
  cases verdict with
  | accepted => exact Iff.rfl
  | refused why => exact iff_of_false nofun nofun

namespace ArrayObject

variable {array next : ArrayObject} {target index : Nat}

/-- An array before and after it was resized: the elements below the new length, and all but the
elements, are as before, and there are no others.  A dense buffer may have been released. -/
structure Resized (before after : ArrayObject) (bound : Nat) : Prop where
  length : after.length = bound
  elements : ∀ position,
    after.element? position = if position < bound then before.element? position else none
  lengthWritable : after.lengthWritable = before.lengthWritable
  base : after.base = before.base
  policy : after.policy = before.policy
  storage : after.elements.isSparse = before.elements.isSparse
  wellFormed : after.WellFormed

/-- How an array answers when it is assigned a length, and what becomes of it. -/
inductive AssignsLength (array : ArrayObject) (target : Nat) : Verdict → ArrayObject → Prop
  | kept (same : target = array.length) : AssignsLength array target .accepted array
  | readOnly (different : target ≠ array.length) (readOnly : array.lengthWritable = false) :
      AssignsLength array target (.refused (.readOnlyOf .length .array)) array
  | resized {next : ArrayObject} (different : target ≠ array.length)
      (writable : array.lengthWritable = true) (unblocked : ∀ index, ¬array.Blocked target index)
      (resized : array.Resized next target) : AssignsLength array target .accepted next
  | stopped {next : ArrayObject} {index : Nat} (different : target ≠ array.length)
      (writable : array.lengthWritable = true) (blocked : array.Blocked target index)
      (resized : array.Resized next (index + 1)) :
      AssignsLength array target (.refused (.redefinition .length)) next

theorem CutAbove.resized (cut : array.CutAbove next index false)
    (writable : array.lengthWritable = true) : array.Resized next (index + 1) where
  length := cut.length
  elements position := by
    simp only [cut.elements, Nat.lt_succ_iff]
  lengthWritable := cut.lengthWritable.trans writable.symm
  base := cut.base
  policy := cut.policy
  storage := cut.storage
  wellFormed := cut.wellFormed

namespace WellFormed

variable (wellFormed : array.WellFormed)

include wellFormed

theorem not_blocked_of_length_le (longer : array.length ≤ target) (index : Nat) :
    ¬array.Blocked target index := by
  intro blocked
  obtain ⟨slot, found, _⟩ := blocked.fixed
  have inside := wellFormed.lt_length found
  have above := blocked.above
  omega

theorem resized_shorten (possible : target ≤ maxArrayLength) :
    array.Resized { array.dropFrom target with length := target } target where
  length := rfl
  elements := element?_dropFrom array target
  lengthWritable := rfl
  base := rfl
  policy := rfl
  storage := Elements.isSparse_dropFrom array.policy array.elements target
  wellFormed := wellFormed.shorten possible

theorem resized_lengthen (longer : array.length ≤ target) (possible : target ≤ maxArrayLength) :
    array.Resized { array with length := target } target where
  length := rfl
  elements position := by
    split
    next => rfl
    next beyond =>
      -- All elements are below the old length.
      rw [Option.eq_none_iff_forall_ne_some]
      intro slot found
      have inside := wellFormed.lt_length found
      omega
  lengthWritable := rfl
  base := rfl
  policy := rfl
  storage := rfl
  wellFormed := wellFormed.lengthen longer possible

theorem resized_truncate (possible : target ≤ maxArrayLength)
    (unblocked : ∀ index, ¬array.Blocked target index) :
    ∃ next, array.truncate target = (.accepted, next) ∧ array.Resized next target := by
  have unstopped : array.blocker? target = none := by
    rw [Option.eq_none_iff_forall_ne_some]
    exact fun index found => unblocked index (wellFormed.blocker?_eq_some_iff.mp found)
  rcases Nat.lt_or_ge target array.length with shorter | longer
  · refine ⟨_, ?_, wellFormed.resized_shorten possible⟩
    simp only [ArrayObject.truncate, unstopped, if_pos shorter]
  · exact ⟨_, array.truncate_of_length_le longer, wellFormed.resized_lengthen longer possible⟩

/-- What an assignment of the length comes to is decided by the elements that must stay, however
the array is stored and whatever it counts. -/
theorem assignsLength (possible : target ≤ maxArrayLength) :
    array.AssignsLength target (array.setLength target).1 (array.setLength target).2 := by
  by_cases same : target = array.length
  · rw [ArrayObject.setLength, if_pos same]
    exact .kept same
  · cases writable : array.lengthWritable with
    | false =>
      rw [ArrayObject.setLength, if_neg same, writable]
      exact .readOnly same writable
    | true =>
      by_cases blocked : ∃ index, array.Blocked target index
      · obtain ⟨index, blocked⟩ := blocked
        obtain ⟨next, assigned, cut⟩ := blocked.setLength wellFormed writable
        rw [assigned]
        exact .stopped same writable blocked (cut.resized writable)
      · have unblocked := not_exists.mp blocked
        obtain ⟨next, truncated, resized⟩ := wellFormed.resized_truncate possible unblocked
        rw [ArrayObject.setLength, if_neg same, writable, if_pos rfl, truncated]
        exact .resized same writable unblocked resized

end WellFormed

theorem write_length (array : ArrayObject) (value : Value) :
    array.write .length value = (toArrayLength value).map array.setLength := by
  have written : array.write .length value =
      toArrayLength value >>= fun length => pure (array.setLength length) := rfl
  rw [written]
  cases toArrayLength value <;> rfl

theorem define_length (array : ArrayObject) (value : Value) :
    array.define .length { value := some value } = (toArrayLength value).map fun length =>
      ((array.setLength length).1.ofRedefinition, (array.setLength length).2) := by
  have defined : array.define .length { value := some value } =
      array.defineLength { value := some value } := rfl
  have kept (after : ArrayObject) (resized : Verdict) :
      after.defineWritable resized { value := some value } = (resized.ofRedefinition, after) := by
    cases resized <;> simp [defineWritable, Verdict.ofRedefinition]
  rw [defined, defineLength]
  simp only [kept]
  rfl

end ArrayObject

end ObjectModel
