import ObjectModel.Proofs.Array.Reachable

/-!
# Sparse arrays stay sparse

Storage changes in one direction only: nothing that is done to a sparse array makes it dense.
-/

namespace ObjectModel

namespace Elements

variable {elements : Elements}

theorem isSparse_clear (elements : Elements) (index : Nat) :
    (elements.clear index).isSparse = elements.isSparse := by
  cases elements <;> rfl

theorem isSparse_modify (elements : Elements) (index : Nat) (slot : Slot) :
    (elements.modify index slot).isSparse = elements.isSparse := by
  cases elements <;> rfl

theorem isSparse_sortSwap (elements : Elements) (a b : Nat) :
    (elements.sortSwap a b).isSparse = elements.isSparse := by
  cases elements with
  | dense slots capacity => rw [sortSwap_dense, isSparse, isSparse]
  | sparse slots => rw [sortSwap_sparse, isSparse, isSparse]

theorem isSparse_dropFrom (policy : Policy) (elements : Elements) (target : Nat) :
    (elements.dropFrom policy target).isSparse = elements.isSparse := by
  cases elements with
  | dense slots capacity =>
    simp only [dropFrom]
    split <;> rfl
  | sparse slots => rfl

theorem isSparse_put (sparse : elements.isSparse = true) (policy : Policy) (count index : Nat)
    (slot : Slot) : (elements.put policy count index slot).isSparse = true := by
  cases elements with
  | dense slots capacity => cases sparse
  | sparse slots => rfl

end Elements

namespace ArrayObject

variable {array next : ArrayObject}

theorem isSparse_store (sparse : array.elements.isSparse = true) (index : Nat) (slot : Slot) :
    (array.store index slot).elements.isSparse = true := by
  have cleared : (array.elements.clear index).isSparse = true := by
    rw [Elements.isSparse_clear, sparse]
  exact Elements.isSparse_put cleared array.policy array.elementCount index slot

theorem isSparse_setLength (array : ArrayObject) (length : Nat) :
    (array.setLength length).2.elements.isSparse = array.elements.isSparse := by
  obtain ⟨bound, same | cut⟩ := array.exists_setLength_eq length
  · rw [same]
  · rw [cut]
    exact Elements.isSparse_dropFrom array.policy array.elements bound

theorem Edits.isSparse {suited : Prop} (edits : Edits suited array next)
    (sparse : array.elements.isSparse = true) : next.elements.isSparse = true := by
  induction edits with
  | refl array => exact sparse
  | trans before after first second => exact second (first sparse)
  | withBase evolves linked => exact sparse
  | store inside succeeds => exact isSparse_store sparse _ _
  | modify found overwritten => exact (Elements.isSparse_modify _ _ _).trans sparse
  | remove found configurable => exact (Elements.isSparse_clear _ _).trans sparse
  | lengthen writable longer possible => exact sparse
  | setLength possible => exact (isSparse_setLength _ _).trans sparse
  | defineWritable resized request => exact sparse

/-- A sparse array is sparse after any mutation. -/
theorem isSparse_after (sparse : array.elements.isSparse = true) (mutation : ArrayMutation) :
    (array.after mutation).elements.isSparse = true := by
  cases mutation with
  | own mutation strict =>
    rcases array.after_own mutation strict with same | ⟨verdict, done⟩
    · rw [same]
      exact sparse
    · exact (edits_mutate done).isSparse sparse
  | setLength length strict =>
    rw [array.after_setLength]
    exact (array.isSparse_setLength length.toNat).trans sparse
  | preventExtensions => exact sparse
  | setPrototype prototype => exact sparse
  | sortSwap a b => exact (Elements.isSparse_sortSwap array.elements a.toNat b.toNat).trans sparse

end ArrayObject

end ObjectModel
