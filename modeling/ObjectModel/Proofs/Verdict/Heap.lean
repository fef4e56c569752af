import ObjectModel.Heap.Run
import ObjectModel.Proofs.Heap.Store
import ObjectModel.Proofs.Verdict.Object

/-!
# Verdicts of heaps

The verdict on each operation that an object may refuse.  An operation is proved to carry out the
same action for a strict and for a lenient caller, native code and partial changes included, and to
report its verdict.
-/

namespace ObjectModel

def Action.report (strict : Bool) (action : Action Verdict) : Action Bool := do
  Action.ofExcept ((← action).report strict)

namespace Action

variable {α : Type}

@[simp]
theorem report_pure (strict : Bool) (verdict : Verdict) :
    (pure verdict : Action Verdict).report strict = ofExcept (verdict.report strict) := rfl

theorem report_bind (strict : Bool) (action : Action α) (next : α → Action Verdict) :
    (action >>= next).report strict = action >>= fun result => (next result).report strict :=
  bind_assoc action next _

end Action

/-- Assign the length of an array, and report it; other objects have none to assign. -/
def Object.resize (length : Nat) : Object → Except Fault (Option Verdict × Object)
  | .array inner =>
    let (verdict, resized) := inner.setLength length
    .ok (some verdict, .array resized)
  | object => .ok (none, object)

/-- How a caller hears a verdict on what only arrays can do. -/
def Verdict.hear (strict : Bool) (verdict : Option Verdict) : Except Fault (Option Bool) :=
  verdict.elim (.ok none) fun verdict => (verdict.report strict).map some

theorem Object.on_resizeOwn (length : Nat) (strict : Bool) (object : Object) :
    (Object.resizeOwn length strict).on object =
      Verdict.passOn (Verdict.hear strict) object (object.resize length) := by
  cases object with
  | array inner =>
    simp only [Object.resizeOwn, Mutation.on_bind, Mutation.on_get, ← bind_pure_comp,
      Mutation.on_through, inner.on_assignLength, Object.resize]
    rcases inner.setLength length with ⟨_ | why, next⟩
    · rfl
    · cases strict <;> rfl
  | _ => rfl

namespace Heap

/-- Change an object in its cell, unless the change fails. -/
def judge {α : Type} (engine : Engine) (id : ObjectId)
    (change : Object → Except Fault (α × Object)) : Action α := do
  construct engine id
  let cell ← cellOf id
  let object ← viewOf (← Action.ofExcept cell.readForWriting)
  let (result, object) ← Action.ofExcept (change object)
  modify (·.store id cell object)
  return result

def judgeSetter (engine : Engine) (setter : Option Value) (key : Key) (receiver value : Value) :
    Action Verdict :=
  match setter with
  | some setter => do
    discard (call engine setter receiver [value])
    return .accepted
  | none => return .refused (.getterOnly key)

/-- Replace the prototype link of an extensible object, unless that would close a cycle. -/
def judgePrototype (engine : Engine) (id : ObjectId) (prototype : Option ObjectId) :
    Action Verdict := do
  let object ← inspect engine id
  if object.prototype = prototype then return .accepted
  else if !object.isExtensible then return .refused .fixedPrototype
  else if ← leadsTo engine id (← MonadState.get).policy.maxPrototypeDepth prototype then
    return .refused .cyclicPrototype
  else
    judge engine id fun object => .ok ((), object.setPrototype prototype)
    return .accepted

def inherited (engine : Engine) (id : ObjectId) (key : Key) : Action (Option Slot) := do
  match ← prototypeOf engine id with
  | some next => lookup engine next key
  | none => return none

def judgeUnder (engine : Engine) (id : ObjectId) (key : Key) (value : Value)
    (inherited : Option Slot) : Action Verdict :=
  match inherited.map Slot.descriptor with
  | some (.accessor _ set _) => judgeSetter engine set key (.object id) value
  | some (.data _ attributes) =>
    if attributes.writable then judge engine id (·.add key value)
    else return .refused (.readOnly key)
  | none => judge engine id (·.add key value)

def judgeInherited (engine : Engine) (id : ObjectId) (key : Key) (value : Value) :
    Action Verdict :=
  inherited engine id key >>= judgeUnder engine id key value

def judgePut (engine : Engine) (id : ObjectId) (key : Key) (value : Value) : Action Verdict := do
  match ((← inspect engine id).getOwn key).map Slot.descriptor with
  | some (.accessor _ set _) => judgeSetter engine set key (.object id) value
  | some (.data ..) => judge engine id (·.write key value)
  | none =>
    if key.isProto then
      match value with
      | .object next => judgePrototype engine id (some next)
      | .null => judgePrototype engine id none
      | _ => return .accepted
    else judgeInherited engine id key value

def judgeDefine (engine : Engine) (id : ObjectId) (key : Key) (request : Request) :
    Action Verdict := do
  Action.ofExcept request.validate
  judge engine id (·.define key request)

def judgeDelete (engine : Engine) (id : ObjectId) (key : Key) : Action Verdict :=
  judge engine id fun object => .ok (object.delete key)

/-- Exchange the positions of an array in its storage; `false` for other objects. -/
def exchangeStored (a b : UInt32) : Object → Except Fault (Bool × Object)
  | .array array => .ok (true, .array (array.sortSwap a.toNat b.toNat))
  | object => .ok (false, object)

theorem on_report (strict : Bool) (action : Action Verdict) (heap : Heap) :
    (action.report strict).on heap =
      (action.on heap).map fun ended => (ended.1.bind (Verdict.report strict), ended.2) := by
  unfold Action.report
  rw [Action.on_bind]
  rcases action.on heap with _ | ⟨_ | verdict, after⟩ <;> rfl

theorem report_eq_ok_true_iff {strict : Bool} {outcome : Except Fault Verdict} :
    outcome.bind (Verdict.report strict) = .ok true ↔ outcome = .ok .accepted := by
  rcases outcome with fault | _ | why
  · exact iff_of_false nofun nofun
  · exact iff_of_true rfl rfl
  · cases strict <;> exact iff_of_false nofun nofun

theorem on_eq_accepted_of_on_report {strict : Bool} {action : Action Verdict} {heap after : Heap}
    (ran : (action.report strict).on heap = some (.ok true, after)) :
    action.on heap = some (.ok .accepted, after) := by
  rw [on_report] at ran
  obtain ⟨⟨outcome, mid⟩, acted, same⟩ := Option.map_eq_some_iff.mp ran
  obtain ⟨reported, sameHeap⟩ := Prod.mk.inj same
  have accepted : outcome = .ok .accepted := report_eq_ok_true_iff.mp reported
  have sameMid : mid = after := sameHeap
  rw [acted, accepted, sameMid]

section

variable {α β : Type} {engine : Engine} {id : ObjectId} {strict : Bool}

/-- A mutation that ends as a change says, and changes nothing where the change fails, is the
change with its result passed on. -/
theorem amend_eq {mutation : Mutation Object β} {change : Object → Except Fault (α × Object)}
    (heard : α → Except Fault β)
    (ends : ∀ object, mutation.on object = Verdict.passOn heard object (change object)) :
    amend engine id mutation = judge engine id change >>= fun result =>
      Action.ofExcept (heard result) := by
  apply Action.ext
  intro heap
  simp only [amend, judge, bind_assoc]
  rw [Action.on_bind, Action.on_bind]
  rcases (construct engine id).on heap with _ | ⟨_ | _, mid⟩
  · rfl
  · rfl
  simp only [Action.on_bind, on_cellOf, Action.on_ofExcept, on_viewOf]
  cases held : mid.held id with
  | error fault => rfl
  | ok cell =>
    simp only
    cases reading : cell.readForWriting with
    | error fault => rfl
    | ok representation =>
      simp only
      cases viewed : mid.viewed representation with
      | error fault => rfl
      | ok object =>
        -- Only here does it matter that the stored object is the one that was found.
        have kept : mid.store id cell object = mid := by
          have found := cell?_of_held held
          cases of_readForWriting reading
          exact store_self found (view?_of_viewed viewed)
        simp only [ends]
        rcases change object with fault | ⟨result, next⟩
        · simp [Verdict.passOn, kept]
        · simp [Verdict.passOn]

theorem amend_eq_report {mutation : Mutation Object Bool}
    {judged : Object → Except Fault (Verdict × Object)}
    (settled : ∀ object, mutation.on object = Verdict.settle strict object (judged object)) :
    amend engine id mutation = (judge engine id judged).report strict :=
  amend_eq (Verdict.report strict) settled

theorem amend_eq_judge {mutation : Mutation Object α} {result : Object → α}
    {change : Object → Object}
    (ends : ∀ object, mutation.on object = (.ok (result object), change object)) :
    amend engine id mutation =
      judge engine id fun object => .ok (result object, change object) := by
  rw [← bind_pure (judge engine id _)]
  exact amend_eq .ok ends

variable (key : Key) (value : Value) (prototype : Option ObjectId)

theorem callSetter_eq (setter : Option Value) (receiver : Value) :
    callSetter engine setter key receiver value strict =
      (judgeSetter engine setter key receiver value).report strict := by
  cases setter with
  | none => rfl
  | some setter =>
    exact (Action.report_bind strict (discard (call engine setter receiver [value])) fun _ =>
      pure .accepted).symm

theorem relink_eq :
    relink engine id prototype =
      judge engine id fun object => .ok ((), object.setPrototype prototype) :=
  amend_eq_judge fun _ => rfl

theorem setPrototype_eq :
    setPrototype engine id prototype strict =
      (judgePrototype engine id prototype).report strict := by
  unfold setPrototype judgePrototype
  rw [Action.report_bind]
  apply bind_congr
  intro object
  split
  next => rfl
  next =>
    split
    next => rfl
    next =>
      rw [Action.report_bind]
      apply bind_congr
      intro heap
      rw [Action.report_bind]
      apply bind_congr
      intro closes
      cases closes with
      | true => rfl
      | false =>
        rw [relink_eq]
        exact (Action.report_bind strict
          (judge engine id fun object => .ok ((), object.setPrototype prototype)) fun _ =>
            pure .accepted).symm

theorem putInherited_eq :
    putInherited engine id key value strict =
      (judgeInherited engine id key value).report strict := by
  have added : amend engine id (Object.addOwn key value strict) =
      (judge engine id (·.add key value)).report strict :=
    amend_eq_report fun object => object.on_addOwn key value
  have under : ∀ found : Option Slot,
      (match found.map Slot.descriptor with
        | some (.accessor _ set _) => callSetter engine set key (.object id) value strict
        | some (.data _ attributes) =>
          if attributes.writable then amend engine id (Object.addOwn key value strict)
          else Action.reject strict (.readOnly key)
        | none => amend engine id (Object.addOwn key value strict)) =
        (judgeUnder engine id key value found).report strict := by
    intro found
    unfold judgeUnder
    rcases found.map Slot.descriptor with _ | ⟨_, attributes⟩ | ⟨_, set, _⟩
    · exact added
    · dsimp only
      split
      next => exact added
      next => rfl
    · exact callSetter_eq key value set (.object id)
  unfold putInherited judgeInherited inherited
  rw [Action.report_bind, bind_assoc]
  apply bind_congr
  intro link
  cases link with
  | none => exact under none
  | some next =>
    apply bind_congr
    exact under

theorem put_eq :
    put engine id key value strict = (judgePut engine id key value).report strict := by
  unfold put judgePut
  rw [Action.report_bind]
  apply bind_congr
  intro object
  rcases (object.getOwn key).map Slot.descriptor with _ | ⟨_, attributes⟩ | ⟨_, set, _⟩
  · dsimp only
    split
    next =>
      cases value with
      | object next => exact setPrototype_eq (some next)
      | null => exact setPrototype_eq none
      | _ => rfl
    next => exact putInherited_eq key value
  · exact amend_eq_report fun object => object.on_writeOwn key value
  · exact callSetter_eq key value set (.object id)

theorem define_eq (request : Request) :
    define engine id key request strict =
      (judgeDefine engine id key request).report strict := by
  unfold define judgeDefine
  rw [Action.report_bind]
  apply bind_congr
  intro _
  exact amend_eq_report fun object => object.on_defineOwn key request

theorem delete_eq :
    delete engine id key strict = (judgeDelete engine id key).report strict :=
  amend_eq_report fun object => object.on_deleteOwn key

theorem amend_mutateOwn (mutation : OwnMutation) :
    amend engine id (Object.mutateOwn mutation strict) =
      (judge engine id (·.mutate mutation)).report strict :=
  amend_eq_report fun object => object.on_mutateOwn mutation

theorem preventExtensions_eq :
    preventExtensions engine id = (do
      judge engine id fun object => .ok ((), object.preventExtensions)
      return true) :=
  congrArg (· >>= fun _ => pure true) (amend_eq_judge fun _ => rfl)

theorem on_swapStored (a b : UInt32) (object : Object) :
    (swapStored a b).on object =
      Verdict.passOn .ok object (exchangeStored a b object) := by
  cases object <;> rfl

theorem amend_swapStored (a b : UInt32) :
    amend engine id (swapStored a b) = judge engine id (exchangeStored a b) := by
  rw [← bind_pure (judge engine id _)]
  exact amend_eq .ok (on_swapStored a b)

theorem amend_resizeOwn (length : Nat) :
    amend engine id (Object.resizeOwn length strict) = (do
      match ← judge engine id (Object.resize length) with
      | some verdict => some <$> Action.ofExcept (verdict.report strict)
      | none => return none) := by
  rw [amend_eq (Verdict.hear strict) (Object.on_resizeOwn length strict)]
  apply bind_congr
  intro verdict
  cases verdict with
  | none => rfl
  | some verdict =>
    rcases verdict with _ | why
    · rfl
    · cases strict <;> rfl

theorem swap_eq (a b : UInt32) :
    swap engine id a b = (do
      unless ← judge engine id (exchangeStored a b) do
        let first ← get engine id (.ofIndex a)
        let second ← get engine id (.ofIndex b)
        discard ((judgePut engine id (.ofIndex a) second).report true)
        discard ((judgePut engine id (.ofIndex b) first).report true)) := by
  unfold swap
  simp only [amend_swapStored, put_eq]

end

end Heap

namespace Command

variable {engine : Engine} {id : ObjectId} {strict : Bool}

theorem execute_put (key : Key) (value : Value) :
    (put id key value strict).execute engine = (Heap.judgePut engine id key value).report strict :=
  Heap.put_eq key value

theorem execute_define (key : Key) (request : Request) :
    (define id key request strict).execute engine =
      (Heap.judgeDefine engine id key request).report strict :=
  Heap.define_eq key request

theorem execute_delete (key : Key) :
    (delete id key strict).execute engine = (Heap.judgeDelete engine id key).report strict :=
  Heap.delete_eq key

theorem execute_setPrototype (prototype : Option ObjectId) :
    (setPrototype id prototype strict).execute engine =
      (Heap.judgePrototype engine id prototype).report strict :=
  Heap.setPrototype_eq prototype

theorem execute_mutate (mutation : OwnMutation) :
    (mutate id mutation strict).execute engine =
      (Heap.judge engine id (·.mutate mutation)).report strict :=
  Heap.amend_mutateOwn mutation

theorem execute_relink (prototype : Option ObjectId) :
    (relink id prototype).execute engine =
      Heap.judge engine id fun object => .ok ((), object.setPrototype prototype) :=
  Heap.relink_eq prototype

theorem execute_resize (length : Nat) :
    (resize id length strict).execute engine = (do
      match ← Heap.judge engine id (Object.resize length) with
      | some verdict => some <$> Action.ofExcept (verdict.report strict)
      | none => return none) :=
  Heap.amend_resizeOwn length

end Command

end ObjectModel
