import ObjectModel.Proofs.Heap.Putting
import ObjectModel.Proofs.Heap.Reading

/-!
# Exchanges that fail

To exchange two positions of an object that is no array, both are read and then both are written,
the first one first.  A write that fails changes nothing; but if it is the second one that fails,
the first one is not taken back.
-/

namespace ObjectModel

theorem Key.isProto_ofIndex (i : UInt32) :
    (ofIndex i).isProto = false ∧ (ofIndex i).isLength = false := by
  unfold ofIndex
  split
  next => exact ⟨rfl, rfl⟩
  next beyond =>
    have largest : i.toNat = 4294967295 := by
      have small := i.toNat_lt
      simp only [maxArrayIndex] at beyond
      omega
    rw [largest]
    decide +kernel

namespace Heap

variable {heap after : Heap} {engine : Engine} {id : ObjectId} {object : Object} {a b : UInt32}
  {fault : Fault}

theorem on_judge_exchangeStored (seen : heap.object? id = some object)
    (notArray : object.kind ≠ .array) (engine : Engine) (a b : UInt32) :
    (judge engine id (exchangeStored a b)).on heap =
      some ((heap.grasp id).map fun _ => false, heap) := by
  obtain ⟨cell, found, viewed⟩ := Option.bind_eq_some_iff.mp seen
  rw [(ready_of_view found viewed).on_judge]
  cases grasped : heap.grasp id with
  | error fault => rfl
  | ok held =>
    obtain ⟨own, other⟩ := held
    obtain ⟨foundOwn, viewedOwn, _⟩ := of_grasp grasped
    cases found.symm.trans foundOwn
    cases viewed.symm.trans viewedOwn
    have unstored : exchangeStored a b object = .ok (false, object) := by
      cases object
      case array => exact absurd rfl notArray
      all_goals rfl
    simp only [unstored, store_self found viewed]
    rfl

theorem on_swap {held : ObjectCell Representation × Object} (seen : heap.object? id = some object)
    (notArray : object.kind ≠ .array) (grasped : heap.grasp id = .ok held) :
    (swap engine id a b).on heap =
      (get engine id (.ofIndex a) >>= fun first =>
        get engine id (.ofIndex b) >>= fun second =>
          discard ((Command.put id (.ofIndex a) second true).execute engine) >>= fun _ =>
            discard ((Command.put id (.ofIndex b) first true).execute engine)).on heap := by
  unfold swap
  rw [amend_swapStored, Action.on_bind, on_judge_exchangeStored seen notArray, grasped]
  rfl

theorem Eager.on_get_value (eager : heap.Eager) (engine : Engine)
    (values : heap.HoldsValue id (.ofIndex a)) :
    (∃ fault, ((Command.get id (.ofIndex a) (.object id)).execute engine).on heap =
        some (.error fault, heap)) ∨
      ∃ value, ((Command.get id (.ofIndex a) (.object id)).execute engine).on heap =
        some (.ok value, heap) ∧ heap.PlainAt id (.ofIndex a) := by
  obtain ⟨notLink, notLength⟩ := Key.isProto_ofIndex a
  rw [eager.on_get engine (.of_plain notLink id)]
  cases searched : heap.foundWithin (.ofIndex a) heap.policy.maxPrototypeDepth id with
  | error fault => exact .inl ⟨fault, rfl⟩
  | ok held =>
    have plain : heap.PlainAt id (.ofIndex a) := ⟨notLink, notLength, values, held, searched⟩
    cases held with
    | none => exact .inr ⟨_, rfl, plain⟩
    | some slot =>
      obtain ⟨value, _, data⟩ := Slot.exists_data (values slot (finds_iff.mpr searched))
      simp only [reading, Option.map_some, data]
      exact .inr ⟨value, rfl, plain⟩

/-- How an exchange fails halfway: the first position has got the value of the second one, which has
failed to get that of the first one. -/
structure StopsHalfway (heap : Heap) (engine : Engine) (id : ObjectId) (a b : UInt32)
    (first second : Value) (fault : Fault) (after : Heap) : Prop where
  readFirst : ((Command.get id (.ofIndex a) (.object id)).execute engine).on heap =
    some (.ok first, heap)
  readSecond : ((Command.get id (.ofIndex b) (.object id)).execute engine).on heap =
    some (.ok second, heap)
  stored : ((Command.put id (.ofIndex a) second true).execute engine).on heap =
    some (.ok true, after)
  failed : ((Command.put id (.ofIndex b) first true).execute engine).on after =
    some (.error fault, after)

/-- Two assignments of values that fail have changed nothing, or the first one has succeeded. -/
theorem Eager.halfway_of_on_puts {key other : Key} {value otherValue : Value} (eager : heap.Eager)
    (seen : heap.object? id = some object) (notArray : object.kind ≠ .array)
    (plain : heap.PlainAt id key) (plainOther : heap.PlainAt id other)
    (ran : (discard ((Command.put id key value true).execute engine) >>= fun _ =>
      discard ((Command.put id other otherValue true).execute engine)).on heap =
        some (.error fault, after)) :
    after = heap ∨
      ((Command.put id key value true).execute engine).on heap = some (.ok true, after) ∧
        ((Command.put id other otherValue true).execute engine).on after =
          some (.error fault, after) := by
  obtain ⟨outcome, mid, puts, ends⟩ :=
    eager.put_ends plain (.refl heap) rfl seen notArray engine value
  rw [Action.on_bind, Action.on_discard, puts] at ran
  cases ends with
  | failed why =>
    cases ran
    exact .inl rfl
  | @stored cell next grasped _ done =>
    have notArrayAfter : next.kind ≠ .array := by
      rw [Object.kind_mutate done]
      exact notArray
    -- The second assignment meets no accessor either: there is none that was not there before.
    obtain ⟨outcome, last, putsOther, ends⟩ :=
      (eager.store (of_grasp grasped).1 next).put_ends plainOther
        (fills_store grasped plain.notLength done notArray) (policy_store ..)
        (object?_of_examine (examine_store grasped done)) notArrayAfter engine otherValue
    simp only [Option.map_some, Except.map, Action.on_discard, putsOther] at ran
    cases ends with
    | failed why =>
      cases ran
      exact .inr ⟨puts, putsOther⟩
    | stored => cases ran

/-- An exchange that fails changes nothing, or it fails halfway. -/
theorem Eager.stopsHalfway_of_on_swap (eager : heap.Eager) (seen : heap.object? id = some object)
    (notArray : object.kind ≠ .array) (first : heap.HoldsValue id (.ofIndex a))
    (second : heap.HoldsValue id (.ofIndex b))
    (ran : ((Command.swap id a b).execute engine).on heap = some (.error fault, after)) :
    after = heap ∨
      ∃ valueOfA valueOfB, heap.StopsHalfway engine id a b valueOfA valueOfB fault after := by
  change (swap engine id a b).on heap = _ at ran
  cases grasped : heap.grasp id with
  | error fault =>
    unfold swap at ran
    rw [amend_swapStored, Action.on_bind, on_judge_exchangeStored seen notArray, grasped] at ran
    cases ran
    exact .inl rfl
  | ok held =>
    rw [on_swap seen notArray grasped] at ran
    rcases eager.on_get_value engine first with ⟨why, unread⟩ | ⟨valueOfA, readA, plainA⟩
    · cases ran.symm.trans (Action.on_bind_error unread _)
      exact .inl rfl
    rcases eager.on_get_value engine second with ⟨why, unread⟩ | ⟨valueOfB, readB, plainB⟩
    · cases ran.symm.trans ((Action.on_bind_ok readA _).trans (Action.on_bind_error unread _))
      exact .inl rfl
    replace ran := (ran.symm.trans (Action.on_bind_ok readA _)).trans (Action.on_bind_ok readB _)
    rcases eager.halfway_of_on_puts seen notArray plainA plainB ran.symm with
      kept | ⟨stored, failed⟩
    · exact .inl kept
    · exact .inr ⟨valueOfA, valueOfB, readA, readB, stored, failed⟩

theorem Eager.plainAt_of_on_get (eager : heap.Eager) (values : heap.HoldsValue id (.ofIndex a))
    {value : Value} (read : ((Command.get id (.ofIndex a) (.object id)).execute engine).on heap =
      some (.ok value, after)) : heap.PlainAt id (.ofIndex a) := by
  rcases eager.on_get_value engine values with ⟨fault, unread⟩ | ⟨_, _, plain⟩
  · cases read.symm.trans unread
  · exact plain

/-- In a heap without lazy objects, an exchange of two positions of an object that is no array and
where there is no accessor at either position, leaves the whole heap as it was if it fails, or it
fails halfway.  It does not fail halfway if the second position takes the value of the first one
from the start. -/
theorem Eager.failed_swap_keeps (eager : heap.Eager) (seen : heap.object? id = some object)
    (notArray : object.kind ≠ .array) (first : heap.HoldsValue id (.ofIndex a))
    (second : heap.HoldsValue id (.ofIndex b))
    (ran : ((Command.swap id a b).execute engine).on heap = some (.error fault, after)) :
    (after = heap ∨
      ∃ valueOfA valueOfB, heap.StopsHalfway engine id a b valueOfA valueOfB fault after) ∧
    ∀ valueOfA last,
      ((Command.get id (.ofIndex a) (.object id)).execute engine).on heap =
        some (.ok valueOfA, heap) →
      ((Command.put id (.ofIndex b) valueOfA true).execute engine).on heap =
        some (.ok true, last) → after = heap := by
  have ends := eager.stopsHalfway_of_on_swap seen notArray first second ran
  refine ⟨ends, ?_⟩
  intro valueOfA last read taken
  rcases ends with kept | ⟨_, _, halfway⟩
  · exact kept
  · cases read.symm.trans halfway.readFirst
    have plainA := eager.plainAt_of_on_get first read
    have plainB := eager.plainAt_of_on_get second halfway.readSecond
    obtain ⟨final, takenToo⟩ :=
      eager.exists_on_put_after_put seen notArray plainB plainA taken halfway.stored
    cases takenToo.symm.trans halfway.failed

/-- An object the second of whose elements is read-only. -/
def lopsided : OrdinaryObject :=
  { OrdinaryObject.new none with
    properties := .insert (.insert .empty (.index 0) (.bare .null)) (.index 1)
      (.described (.data .undefined
        { writable := false, enumerable := true, configurable := true })) }

def lopsidedHeap : Heap where
  cells := #[.new (.ordinary lopsided)]
  policy := {}
  collections := #[]
  names := []
  log := []

theorem lopsidedHeap_eager : lopsidedHeap.Eager := by
  rintro ⟨_ | index⟩ cell found
  · cases found
    rfl
  · cases found

theorem lopsidedHeap_holdsValue :
    lopsidedHeap.HoldsValue ⟨0⟩ (.ofIndex 0) ∧ lopsidedHeap.HoldsValue ⟨0⟩ (.ofIndex 1) :=
  ⟨holdsValue_of_foundWithin rfl rfl, holdsValue_of_foundWithin rfl rfl⟩

/-- An exchange that begins with the read-only element changes nothing. -/
theorem failed_swap_keeps_lopsidedHeap :
    lopsidedHeap.Eager ∧ lopsidedHeap.object? ⟨0⟩ = some (.ordinary lopsided) ∧
      (Object.ordinary lopsided).kind ≠ .array ∧ lopsidedHeap.HoldsValue ⟨0⟩ (.ofIndex 1) ∧
      lopsidedHeap.HoldsValue ⟨0⟩ (.ofIndex 0) ∧
      ((Command.swap ⟨0⟩ 1 0).execute (.within 0)).on lopsidedHeap =
        some (.error (.attributeViolation (.readOnly (.index 1))), lopsidedHeap) := by
  obtain ⟨after, ran⟩ : ∃ after, ((Command.swap ⟨0⟩ 1 0).execute (.within 0)).on lopsidedHeap =
      some (.error (.attributeViolation (.readOnly (.index 1))), after) := ⟨_, rfl⟩
  have notArray : (Object.ordinary lopsided).kind ≠ .array := nofun
  obtain ⟨values, readOnly⟩ := lopsidedHeap_holdsValue
  have kept := lopsidedHeap_eager.failed_swap_keeps rfl notArray readOnly values ran
  have unchanged := kept.2 _ _ rfl rfl
  rw [unchanged] at ran
  exact ⟨lopsidedHeap_eager, rfl, notArray, readOnly, values, ran⟩

/-- An exchange that ends with the read-only element overwrites the other one and fails. -/
theorem failed_swap_lopsidedHeap_halfway :
    lopsidedHeap.Eager ∧ (Object.ordinary lopsided).kind ≠ .array ∧
      lopsidedHeap.object? ⟨0⟩ = some (.ordinary lopsided) ∧
      lopsidedHeap.HoldsValue ⟨0⟩ (.ofIndex 0) ∧ lopsidedHeap.HoldsValue ⟨0⟩ (.ofIndex 1) ∧
      lopsided.getOwn (.index 0) = some (.bare .null) ∧
      ∃ after next, ((Command.swap ⟨0⟩ 0 1).execute (.within 0)).on lopsidedHeap =
          some (.error (.attributeViolation (.readOnly (.index 1))), after) ∧
        after.object? ⟨0⟩ = some next ∧ next.getOwn (.index 0) = some (.bare .undefined) :=
  ⟨lopsidedHeap_eager, nofun, rfl, lopsidedHeap_holdsValue.1, lopsidedHeap_holdsValue.2, rfl, _, _,
    rfl, rfl, rfl⟩

end Heap

end ObjectModel
