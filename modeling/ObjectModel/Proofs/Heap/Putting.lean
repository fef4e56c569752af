import ObjectModel.Proofs.Heap.Filling
import ObjectModel.Proofs.Heap.Rooted
import ObjectModel.Proofs.Object.Writing

/-!
# Assignments of values

An assignment where no accessor is found, and which is not about the prototype link or a length,
stores the value in the object itself, or it fails and nothing changes.  It succeeds if the object
takes the value and what it inherits permits it, and then it still does so after any other one.
-/

namespace ObjectModel

namespace Object

variable {object : Object}

/-- Only a length that an array must not have makes a mutation stop halfway. -/
theorem allOrNothing_mutate_of_ne_array (notArray : object.kind ≠ .array) (mutation : OwnMutation) :
    AllOrNothing Object.prototype object (object.mutate mutation) := by
  apply allOrNothing_mutate
  · cases object
    case array => exact absurd rfl notArray
    all_goals trivial
  · intro index stopped
    cases stopped
    exact notArray rfl

end Object

namespace Heap

variable {heap before after : Heap} {engine : Engine} {id : ObjectId} {object : Object} {key : Key}
  {value : Value}

/-- Whether what is found at a key, if anything, is a value and no accessor. -/
def HoldsValue (heap : Heap) (id : ObjectId) (key : Key) : Prop :=
  ∀ slot, heap.Finds key heap.policy.maxPrototypeDepth id (.ok (some slot)) →
    slot.descriptor.isAccessor = false

theorem holdsValue_of_foundWithin {slot : Slot}
    (found : heap.foundWithin key heap.policy.maxPrototypeDepth id = .ok (some slot))
    (isValue : slot.descriptor.isAccessor = false) : heap.HoldsValue id key := by
  intro other finds
  cases found.symm.trans finds.foundWithin_eq
  exact isValue

/-- Whether a property can be searched for and, if it is found, is no accessor; `__proto__` and
lengths are other matters. -/
structure PlainAt (heap : Heap) (id : ObjectId) (key : Key) : Prop where
  notLink : key.isProto = false
  notLength : key.isLength = false
  holds : heap.HoldsValue id key
  searched : ∃ found, heap.foundWithin key heap.policy.maxPrototypeDepth id = .ok found

namespace PlainAt

variable (plain : before.PlainAt id key) (fills : before.Fills heap)
  (seen : heap.examine id = .ok object) {slot : Slot}

include plain fills seen

theorem isAccessor_own (own : object.getOwn key = some slot) :
    slot.descriptor.isAccessor = false := by
  refine Bool.eq_false_iff.mpr fun isAccessor => ?_
  obtain ⟨old, seenBefore, _, filled⟩ := fills id object seen
  have filledKey := filled key
  rw [own] at filledKey
  have ownBefore := filledKey.eq_of_isAccessor isAccessor
  obtain ⟨found, searched⟩ := plain.searched
  cases limit : before.policy.maxPrototypeDepth with
  | zero =>
    rw [limit] at searched
    cases searched
  | succ depth =>
    have here : before.foundWithin key before.policy.maxPrototypeDepth id = .ok (some slot) := by
      rw [limit, foundWithin_succ, seenBefore]
      simp only [Except.bind, ownBefore]
    cases isAccessor.symm.trans (plain.holds slot (finds_iff.mpr here))

theorem isAccessor_inherited (absent : object.getOwn key = none)
    (inherits : heap.foundFrom key before.policy.maxPrototypeDepth object.prototype =
      .ok (some slot)) : slot.descriptor.isAccessor = false := by
  refine Bool.eq_false_iff.mpr fun isAccessor => ?_
  obtain ⟨old, seenBefore, sameLink, filled⟩ := fills id object seen
  have filledKey := filled key
  rw [absent] at filledKey
  obtain ⟨found, searched⟩ := plain.searched
  have inherited := foundFrom_behind searched seenBefore filledKey.eq_none
  cases linked : object.prototype with
  | none =>
    rw [linked] at inherits
    cases inherits
  | some next =>
    rw [← sameLink, linked] at inherited
    rw [linked] at inherits
    cases inherited.symm.trans (fills.foundWithin_eq isAccessor inherits)
    cases isAccessor.symm.trans (plain.holds slot (finds_iff.mpr searched))

end PlainAt

/-- Whether what an object inherits at a key, if it lacks it, allows it to have a value there. -/
def Permits (heap : Heap) (object : Object) (key : Key) : Prop :=
  object.getOwn key = none →
    ∃ held, heap.foundFrom key heap.policy.maxPrototypeDepth object.prototype = .ok held ∧
      held.all Slot.isWritable = true

/-- How the assignment of a value to a plain key ends. -/
inductive PutEnds (heap : Heap) (id : ObjectId) (key : Key) (value : Value) (object : Object) :
    Except Fault Bool → Heap → Prop
  | failed (fault : Fault) : PutEnds heap id key value object (.error fault) heap
  | stored {cell : ObjectCell Representation} {next : Object}
      (grasped : heap.grasp id = .ok (cell, object)) (permits : heap.Permits object key)
      (done : object.mutate (.write key value) = .ok (.accepted, next)) :
      PutEnds heap id key value object (.ok true) (heap.store id cell next)

theorem putEnds_write (seen : heap.object? id = some object) (notArray : object.kind ≠ .array)
    (permits : heap.Permits object key) (engine : Engine) (value : Value) :
    ∃ outcome after, ((Command.mutate id (.write key value) true).execute engine).on heap =
        some (outcome, after) ∧ heap.PutEnds id key value object outcome after := by
  obtain ⟨cell, found, viewed⟩ := Option.bind_eq_some_iff.mp seen
  have ran := on_mutate found viewed engine (.write key value) true
  have whole := Object.allOrNothing_mutate_of_ne_array notArray (.write key value)
  have grasped := grasp_eq found viewed
  cases borrow : cell.borrow with
  | shared readers =>
    rw [borrow] at ran
    exact ⟨_, _, ran, .failed _⟩
  | exclusive =>
    rw [borrow] at ran
    exact ⟨_, _, ran, .failed _⟩
  | free =>
    rw [borrow] at ran grasped
    cases done : object.mutate (.write key value) with
    | error fault =>
      rw [done] at ran
      exact ⟨_, _, ran, .failed _⟩
    | ok ended =>
      obtain ⟨verdict, next⟩ := ended
      rw [done] at ran whole
      cases whole with
      | accepted => exact ⟨_, _, ran, .stored grasped permits done⟩
      | refused why =>
        simp only [store_self found viewed] at ran
        exact ⟨_, _, ran, .failed _⟩

theorem Eager.on_inherited_of_seen (eager : heap.Eager) (engine : Engine)
    (seen : heap.examine id = .ok object) (key : Key) :
    (inherited engine id key).on heap =
      some (heap.foundFrom key heap.policy.maxPrototypeDepth object.prototype, heap) := by
  rw [eager.on_inherited, seen]
  simp only [Except.map, Except.bind]
  cases object.prototype <;> rfl

/-- How the assignment of a value goes: unless what is inherited forbids it, the object itself is
told to write the value. -/
def Forwards (heap : Heap) (engine : Engine) (id : ObjectId) (object : Object) (key : Key)
    (value : Value) (action : Action Verdict) : Prop :=
  (heap.Permits object key ∧
      action.on heap = (judge engine id (·.mutate (.write key value))).on heap) ∨
    ¬heap.Permits object key ∧
      ∃ outcome, action.on heap = some (outcome, heap) ∧ outcome ≠ .ok .accepted

theorem Eager.on_judge_congr (eager : heap.Eager) (engine : Engine)
    (seen : heap.examine id = .ok object)
    {change other : Object → Except Fault (Verdict × Object)}
    (same : change object = other object) :
    (judge engine id change).on heap = (judge engine id other).on heap := by
  rw [(eager.ready id).on_judge, (eager.ready id).on_judge]
  cases grasped : heap.grasp id with
  | error fault => rfl
  | ok held =>
    obtain ⟨cell, own⟩ := held
    cases seen.symm.trans (of_grasp grasped).2.2
    simp only [same]

section Putting

variable (eager : heap.Eager) (plain : before.PlainAt id key) (fills : before.Fills heap)
  (policy : heap.policy = before.policy) (seen : heap.examine id = .ok object)
  (notArray : object.kind ≠ .array)

include eager plain fills policy seen

theorem Eager.forwards_putInherited (notArray : object.kind ≠ .array)
    (absent : object.getOwn key = none) (engine : Engine) (value : Value) :
    heap.Forwards engine id object key value (judgeInherited engine id key value) := by
  have inherits := eager.on_inherited_of_seen engine seen key
  have adds : (judge engine id (·.add key value)).on heap =
      (judge engine id (·.mutate (.write key value))).on heap :=
    eager.on_judge_congr engine seen (Object.add_eq_write notArray absent)
  unfold Forwards judgeInherited
  rw [Action.on_bind, inherits]
  cases found : heap.foundFrom key heap.policy.maxPrototypeDepth object.prototype with
  | error fault =>
    refine .inr ⟨fun permits => ?_, _, rfl, nofun⟩
    obtain ⟨_, same, _⟩ := permits absent
    cases found.symm.trans same
  | ok held =>
    cases held with
    | none => exact .inl ⟨fun _ => ⟨none, found, rfl⟩, adds⟩
    | some slot =>
      -- No setter is inherited, so what decides is whether the value there may be overwritten.
      obtain ⟨_, attributes, data⟩ :=
        Slot.exists_data (plain.isAccessor_inherited fills seen absent (policy ▸ found))
      have isWritable := Slot.isWritable_of_data data
      simp only [judgeUnder, Option.map_some, data]
      split
      next writable => exact .inl ⟨fun _ => ⟨_, found, isWritable.trans writable⟩, adds⟩
      next readOnly =>
        refine .inr ⟨fun permits => ?_, _, rfl, nofun⟩
        obtain ⟨_, same, writable⟩ := permits absent
        cases found.symm.trans same
        exact readOnly (isWritable.symm.trans writable)

theorem Eager.forwards_put (notArray : object.kind ≠ .array) (engine : Engine) (value : Value) :
    heap.Forwards engine id object key value (judgePut engine id key value) := by
  have property : key.isProto = true → (object.getOwn key).isSome = true := by
    rw [plain.notLink]
    exact nofun
  unfold Forwards
  rw [eager.on_put engine seen key value property]
  cases own : object.getOwn key with
  | none =>
    exact eager.forwards_putInherited plain fills policy seen notArray own engine value
  | some slot =>
    obtain ⟨_, attributes, data⟩ := Slot.exists_data (plain.isAccessor_own fills seen own)
    have permits : heap.Permits object key := fun absent => nomatch own.symm.trans absent
    rw [Option.map_some, data]
    exact .inl ⟨permits, rfl⟩

end Putting

section Ending

variable (eager : heap.Eager) (plain : before.PlainAt id key) (fills : before.Fills heap)
  (policy : heap.policy = before.policy)

include eager plain fills policy

/-- The assignment of a value to a plain key stores it in the object, or fails and changes
nothing. -/
theorem Eager.put_ends (present : heap.object? id = some object) (notArray : object.kind ≠ .array)
    (engine : Engine) (value : Value) :
    ∃ outcome after, ((Command.put id key value true).execute engine).on heap =
        some (outcome, after) ∧ heap.PutEnds id key value object outcome after := by
  rw [Command.execute_put, on_report]
  have inspected := eager.on_inspect engine id
  cases seen : heap.examine id with
  | error fault =>
    rw [seen] at inspected
    have unseen : (judgePut engine id key value).on heap = some (.error fault, heap) :=
      Action.on_bind_error inspected _
    rw [unseen]
    exact ⟨_, _, rfl, .failed fault⟩
  | ok own =>
    cases present.symm.trans (object?_of_examine seen)
    rcases eager.forwards_put plain fills policy seen notArray engine value with
      ⟨permits, same⟩ | ⟨_, outcome, ran, unaccepted⟩
    · rw [same, ← on_report, ← Command.execute_mutate]
      exact putEnds_write present notArray permits engine value
    · rw [ran]
      rcases outcome with fault | _ | why
      · exact ⟨_, _, rfl, .failed fault⟩
      · exact absurd rfl unaccepted
      · exact ⟨_, _, rfl, .failed _⟩

theorem Eager.exists_on_put {cell : ObjectCell Representation}
    (grasped : heap.grasp id = .ok (cell, object)) (notArray : object.kind ≠ .array)
    (permits : heap.Permits object key) (takes : object.Takes key value) (engine : Engine) :
    ∃ final, ((Command.put id key value true).execute engine).on heap =
      some (.ok true, final) := by
  obtain ⟨next, done⟩ := takes
  have seen := (of_grasp grasped).2.2
  rcases eager.forwards_put plain fills policy seen notArray engine value with
    ⟨_, same⟩ | ⟨forbids, _⟩
  · rw [Command.execute_put, on_report, same, (eager.ready id).on_judge, grasped]
    simp only [Object.mutate, done]
    exact ⟨_, rfl⟩
  · exact absurd permits forbids

end Ending

theorem Permits.store (permits : heap.Permits object key) {cell : ObjectCell Representation}
    {written : Key} {verdict : Verdict} {next : Object}
    (grasped : heap.grasp id = .ok (cell, object)) (notArray : object.kind ≠ .array)
    (notLength : written.isLength = false)
    (done : object.mutate (.write written value) = .ok (verdict, next)) :
    (heap.store id cell next).Permits next key := by
  intro absent
  have filled := Object.filled_write notArray notLength done key
  rw [absent] at filled
  obtain ⟨held, found, writable⟩ := permits filled.eq_none
  refine ⟨held, ?_, writable⟩
  rw [policy_store, Object.prototype_mutate done]
  exact (keepsAt_store grasped notLength done notArray absent).foundFrom_eq found

/-- An object that takes a value where it is permitted also does so when another value has been
assigned. -/
theorem Eager.exists_on_put_after_put {other : Key} {otherValue : Value} {last : Heap}
    (eager : heap.Eager) (present : heap.object? id = some object)
    (notArray : object.kind ≠ .array) (plain : heap.PlainAt id key)
    (plainOther : heap.PlainAt id other)
    (ran : ((Command.put id key value true).execute engine).on heap = some (.ok true, last))
    (ranOther : ((Command.put id other otherValue true).execute engine).on heap =
      some (.ok true, after)) :
    ∃ final, ((Command.put id key value true).execute engine).on after =
      some (.ok true, final) := by
  obtain ⟨outcome, stored, same, ends⟩ :=
    eager.put_ends plain (.refl heap) rfl present notArray engine value
  cases ran.symm.trans same
  obtain ⟨outcomeOther, storedOther, sameOther, endsOther⟩ :=
    eager.put_ends plainOther (.refl heap) rfl present notArray engine otherValue
  cases ranOther.symm.trans sameOther
  cases ends with
  | stored grasped permits taken =>
  cases endsOther with
  | @stored cell next graspedOther _ done =>
    obtain ⟨_, graspedAfter⟩ := exists_grasp_of_mutate graspedOther done
    have notArrayAfter : next.kind ≠ .array := by
      rw [Object.kind_mutate done]
      exact notArray
    have takes : object.Takes key value := ⟨_, taken⟩
    exact (eager.store (of_grasp graspedOther).1 next).exists_on_put plain
      (fills_store graspedOther plainOther.notLength done notArray) (policy_store ..) graspedAfter
      notArrayAfter (permits.store graspedOther notArray plainOther.notLength done)
      (takes.after_write notArray plain.notLength plainOther.notLength done) engine

end Heap

end ObjectModel
