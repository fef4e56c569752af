import ObjectModel.Proofs.Array.Reachable
import ObjectModel.Proofs.Heap.Direct

/-!
# What may become of the objects of a heap

Native code that bypasses no checks lets every object of a heap evolve: whatever such code runs,
locked properties stay as they are and closed objects stay closed.
-/

namespace ObjectModel

/-- Whether a representation is complete: it is not lazy, and an array is well formed, as all arrays
that were built and mutated are. -/
def Representation.Settled : Representation → Prop
  | .array inner => inner.WellFormed
  | .pending _ | .spent => False
  | .ordinary _ | .string _ | .host _ | .function .. => True

namespace Heap

/-- Whether no object of a heap is lazy, and all of its native code bypasses nothing. -/
def Settled (heap : Heap) : Prop :=
  ∀ id cell, heap.cell? id = some cell → cell.value.Obeys (.direct Representation.Settled)

/-- What may become of the objects of a heap. -/
def Evolves (before after : Heap) : Prop :=
  ∀ id object, before.native? id = some object →
    ∃ next, after.native? id = some next ∧ object.Evolves next

theorem Evolves.refl (heap : Heap) : heap.Evolves heap := by
  intro id object held
  exact ⟨object, held, .refl object⟩

theorem Evolves.trans {first second third : Heap} (before : first.Evolves second)
    (after : second.Evolves third) : first.Evolves third := by
  intro id object held
  obtain ⟨between, heldBetween, evolves⟩ := before id object held
  obtain ⟨next, heldAfter, evolvesAfter⟩ := after id between heldBetween
  exact ⟨next, heldAfter, evolves.trans evolvesAfter⟩

theorem Evolves.of_cells {before after : Heap}
    (same : ∀ id cell, before.cell? id = some cell →
      ∃ next, after.cell? id = some next ∧ next.value = cell.value) :
    before.Evolves after := by
  intro id object held
  obtain ⟨cell, found, native⟩ := Option.bind_eq_some_iff.mp held
  obtain ⟨next, foundAfter, value⟩ := same id cell found
  refine ⟨object, ?_, .refl object⟩
  rw [native?, foundAfter, Option.bind_some, value]
  exact native

end Heap

namespace Representation

theorem Settled.isLazy {representation : Representation} (settled : representation.Settled) :
    representation.isLazy = false := by
  cases representation
  case pending factory => cases settled
  case spent => cases settled
  all_goals rfl

theorem Obeys.admitted {discipline : Discipline} {representation : Representation}
    (obeys : representation.Obeys discipline) : discipline.admits representation := by
  cases representation
  case function name body base => exact obeys.1
  case pending factory => exact obeys.1
  all_goals exact obeys

theorem Settled.wellFormed {representation : Representation} (settled : representation.Settled)
    {heap : Heap} {object : Object} (viewed : heap.view? representation = some object) :
    object.WellFormed := by
  cases representation
  case host view =>
    obtain ⟨collection, _, rfl⟩ := Option.map_eq_some_iff.mp viewed
    cases collection <;> trivial
  case array inner =>
    cases viewed
    exact settled
  case pending factory => cases viewed
  case spent => cases viewed
  all_goals
    cases viewed
    trivial

theorem Obeys.represent {old : Representation}
    (obeys : old.Obeys (.direct Representation.Settled)) {next : Object}
    (wellFormed : next.WellFormed) :
    (Heap.represent old next).Obeys (.direct Representation.Settled) := by
  cases next
  case array inner => exact wellFormed
  case ordinary inner => trivial
  case string inner => trivial
  case map view =>
    cases old
    case host host => trivial
    all_goals exact obeys
  case sequence view =>
    cases old
    case host host => trivial
    all_goals exact obeys
  case function base =>
    cases old
    case function name body oldBase => exact ⟨trivial, obeys.2⟩
    all_goals exact obeys

end Representation

namespace Heap

def evolving : Regime where
  safe := Settled
  leadsTo := Evolves
  refl := Evolves.refl
  trans := Evolves.trans

variable {heap : Heap}

theorem Settled.eager (settled : heap.Settled) : heap.Eager := by
  intro id cell found
  exact (settled id cell found).admitted.isLazy

/-- A mutation that lets its object evolve lets the heap evolve. -/
theorem Settled.reaches_store (settled : heap.Settled) {id : ObjectId}
    {cell : ObjectCell Representation} {object next : Object}
    (grasped : heap.grasp id = .ok (cell, object)) (evolves : object.Evolves next)
    (wellFormed : next.WellFormed) : evolving.Reaches heap (heap.store id cell next) := by
  obtain ⟨found, viewed, _⟩ := of_grasp grasped
  constructor
  · intro other stored foundStored
    rw [cell?_store found] at foundStored
    split at foundStored
    next =>
      cases foundStored
      exact (settled id cell found).represent wellFormed
    next => exact settled other stored foundStored
  · intro other native held
    obtain ⟨own, foundOwn, nativeOwn⟩ := Option.bind_eq_some_iff.mp held
    unfold native?
    rw [cell?_store found]
    split
    next here =>
      rw [here, found] at foundOwn
      cases foundOwn
      have viewedOwn := ((native?_eq_some_iff heap).mp nativeOwn).1
      rw [viewed] at viewedOwn
      cases viewedOwn
      exact ⟨next, native?_represent nativeOwn evolves.kind, evolves⟩
    next => exact ⟨native, held, .refl native⟩

theorem allows_evolving : evolving.Allows Representation.Settled where
  eager := Settled.eager
  obeys settled _ _ found := settled _ _ found
  recorded settled event := ⟨settled, .of_cells fun _ cell found => ⟨cell, found, rfl⟩⟩
  allocated := by
    intro heap settled representation obeys
    constructor
    · intro id cell found
      rw [cell?_push] at found
      split at found
      next =>
        cases found
        exact obeys
      next => exact settled id cell found
    · apply Evolves.of_cells
      intro id cell found
      refine ⟨cell, ?_, rfl⟩
      rw [cell?_push, if_neg]
      · exact found
      · intro last
        have inside := (Array.getElem?_eq_some_iff.mp found).1
        rw [last] at inside
        exact Nat.lt_irrefl _ inside
  mutated := by
    intro heap settled id cell object grasped mutation verdict next suits mutated
    obtain ⟨found, viewed, _⟩ := of_grasp grasped
    have wellFormed := (settled id cell found).admitted.wellFormed viewed
    have evolves := Object.evolves_mutate wellFormed suits mutated
    exact settled.reaches_store grasped evolves (wellFormed.mutate mutated)
  linked := by
    intro heap settled id cell object grasped extensible depth prototype _
    obtain ⟨found, viewed, _⟩ := of_grasp grasped
    have wellFormed := (settled id cell found).admitted.wellFormed viewed
    have evolves := Object.evolves_setPrototype extensible prototype
    exact settled.reaches_store grasped evolves (wellFormed.setPrototype prototype)
  closed := by
    intro heap settled id cell object grasped
    obtain ⟨found, viewed, _⟩ := of_grasp grasped
    have wellFormed := (settled id cell found).admitted.wellFormed viewed
    exact settled.reaches_store grasped object.evolves_preventExtensions
      wellFormed.preventExtensions
  borrowed := by
    intro heap settled id cell found borrow
    constructor
    · intro other next foundNext
      rw [cell?_setCell found] at foundNext
      split at foundNext
      next =>
        cases foundNext
        exact settled id cell found
      next => exact settled other next foundNext
    · apply Evolves.of_cells
      intro other own foundOwn
      rw [cell?_setCell found]
      split
      next here =>
        rw [here, found] at foundOwn
        cases foundOwn
        exact ⟨_, rfl, rfl⟩
      next => exact ⟨own, foundOwn, rfl⟩
  hosted settled _ _ _ := ⟨settled, .of_cells fun _ cell found => ⟨cell, found, rfl⟩⟩

/-- Over any run of native code that bypasses nothing, a locked property of an object is kept, and
an object that is not extensible stays so, with its prototype and without new properties. -/
theorem Settled.locked_properties_kept {heap after : Heap} (settled : heap.Settled) {depth : Nat}
    {goal : Goal} {code : Code goal} (obeys : code.Obeys (.direct Representation.Settled))
    {outcome : Except Fault goal.Result}
    (ran : (code.run depth).on heap = some (outcome, after)) {id : ObjectId} {object : Object}
    (held : heap.native? id = some object) :
    ∃ next, after.native? id = some next ∧ next.kind = object.kind ∧
      (∀ key slot, object.getOwn key = some slot → slot.isConfigurable = false →
        ∃ kept, next.getOwn key = some kept ∧ slot.descriptor.KeptAs kept.descriptor) ∧
      (object.isExtensible = false →
        next.isExtensible = false ∧ next.prototype = object.prototype ∧
          ∀ key, object.getOwn key = none → next.getOwn key = none) := by
  have keeps : evolving.Keeps (code.run depth) :=
    Code.keeps_run (fun _ respects _ => allows_evolving.keeps_execute respects) depth code obeys
  obtain ⟨_, evolves⟩ := keeps heap settled outcome after ran
  obtain ⟨next, heldAfter, evolvesObject⟩ := evolves id object held
  obtain ⟨cell, _, native⟩ := Option.bind_eq_some_iff.mp held
  have evolvesView := evolvesObject.view ((native?_eq_some_iff heap).mp native).2
  refine ⟨next, heldAfter, evolvesObject.kind, ?_, ?_⟩
  · intro key slot found fixed
    exact (evolvesView.properties key).kept slot found fixed
  · intro inextensible
    obtain ⟨closed, samePrototype⟩ := evolvesView.closed inextensible
    refine ⟨closed, samePrototype, ?_⟩
    intro key absent
    exact (evolvesView.properties key).absent absent inextensible

/-- An array with one element, which is locked. -/
def lockedArray : ArrayObject :=
  (ArrayObject.new none {}).after (.own (.define (.index 0) { value := some .null }) true)

def lockedHeap : Heap where
  cells := #[.new (.array lockedArray)]
  policy := {}
  collections := #[]
  names := []
  log := []

/-- Code that tries to overwrite the element, to describe it anew and to delete it. -/
def assault : Code (.reply .flag) :=
  .perform (.put ⟨0⟩ (.index 0) .undefined false) fun _ =>
    .perform (.define ⟨0⟩ (.index 0) { writable := some true } false) fun _ =>
      .perform (.delete ⟨0⟩ (.index 0) false) fun
        | .ok flag => .give flag
        | .error fault => .fail fault

theorem lockedHeap_settled : lockedHeap.Settled := by
  intro id cell found
  have wellFormed : lockedArray.WellFormed := (ArrayObject.WellFormed.new none {}).after _
  obtain ⟨index⟩ := id
  cases index with
  | zero =>
    cases found
    exact wellFormed
  | succ index => cases found

theorem locked_properties_kept_assault :
    lockedHeap.Settled ∧ assault.Obeys (.direct Representation.Settled) ∧
      (assault.run 1).on lockedHeap = some (.ok false, lockedHeap) ∧
      ∃ next, lockedHeap.native? ⟨0⟩ = some next ∧
        ∃ kept, next.getOwn (.index 0) = some kept ∧
          (Descriptor.data .null .locked).KeptAs kept.descriptor := by
  have obeys : assault.Obeys (.direct Representation.Settled) := by
    refine ⟨rfl, fun _ => ⟨rfl, fun _ => ⟨rfl, ?_⟩⟩⟩
    intro outcome
    cases outcome <;> trivial
  have ran : (assault.run 1).on lockedHeap = some (.ok false, lockedHeap) := rfl
  have held : lockedHeap.native? ⟨0⟩ = some (.array lockedArray) := rfl
  obtain ⟨next, heldAfter, _, kept, _⟩ :=
    lockedHeap_settled.locked_properties_kept obeys ran held
  exact ⟨lockedHeap_settled, obeys, ran, next, heldAfter, kept (.index 0) _ rfl rfl⟩

end Heap

end ObjectModel
