import ObjectModel.Proofs.Heap.Atomicity
import ObjectModel.Proofs.Object.Gain

/-!
# Assignment along a prototype chain

What an assignment does is decided by the first holder of the key on the prototype chain.  An
accessor has its setter called and a read-only value forbids the assignment, wherever they are held;
an own writable value is overwritten, and in all other cases the object gains a property of its own,
unless it is closed or an array that cannot grow.
-/

namespace ObjectModel

namespace Heap

variable {heap : Heap}

/-- The objects on the prototype chain of a handle, up to the end of the chain. -/
inductive Chain (heap : Heap) : ObjectId → List Object → Prop
  | last {id : ObjectId} {object : Object} (seen : heap.examine id = .ok object)
      (ends : object.prototype = none) : Chain heap id [object]
  | link {id next : ObjectId} {object : Object} {rest : List Object}
      (seen : heap.examine id = .ok object) (linked : object.prototype = some next)
      (chain : Chain heap next rest) : Chain heap id (object :: rest)

/-- A chain that fits the depth is searched to its end. -/
theorem Chain.foundWithin_eq {id : ObjectId} {objects : List Object}
    (chain : heap.Chain id objects) {depth : Nat} (fits : objects.length ≤ depth) (key : Key) :
    heap.foundWithin key depth id = .ok (objects.findSome? fun object => object.getOwn key) := by
  induction chain generalizing depth with
  | last seen ends =>
    obtain _ | depth := depth
    · cases fits
    · simp only [foundWithin, seen, Except.bind, ends, List.findSome?]
      split <;> simp_all
  | link seen linked chain inductionHypothesis =>
    obtain _ | depth := depth
    · cases fits
    · simp only [foundWithin, seen, Except.bind, linked, List.findSome?]
      have fitsRest := Nat.le_of_succ_le_succ fits
      split
      next found => rw [found]
      next absent same =>
        cases same
        rw [absent]
        exact inductionHypothesis fitsRest
      next impossible => cases impossible

theorem Chain.examine_eq {id : ObjectId} {object : Object} {rest : List Object}
    (chain : heap.Chain id (object :: rest)) : heap.examine id = .ok object := by
  cases chain with
  | last seen ends => exact seen
  | link seen linked chain => exact seen

theorem Chain.on_inherited {id : ObjectId} {object : Object} {rest : List Object}
    (chain : heap.Chain id (object :: rest)) (eager : heap.Eager)
    (fits : rest.length ≤ heap.policy.maxPrototypeDepth) (engine : Engine) (key : Key) :
    (inherited engine id key).on heap =
      some (.ok (rest.findSome? fun holder => holder.getOwn key), heap) := by
  rw [eager.on_inherited]
  cases chain with
  | last seen ends =>
    rw [seen]
    simp only [Except.map, Except.bind, ends]
    rfl
  | link seen linked chain =>
    rw [seen]
    simp only [Except.map, Except.bind, linked, chain.foundWithin_eq fits key]

/-- What a call amounts to: the body of a function runs once, after the call is recorded. -/
def calling (heap : Heap) (engine : Engine) (function this : Value) (args : List Value) :
    Option (Except Fault Value × Heap) :=
  match function with
  | .object id =>
    match heap.look id with
    | .error fault => some (.error fault, heap)
    | .ok (.function name body _) =>
      (engine.run (body this args)).on (heap.record (.call name this args))
    | .ok _ => some (.error (.typeMismatch (.notFunction function.display)), heap)
  | _ => some (.error (.typeMismatch (.notFunction function.display)), heap)

theorem Eager.on_call (eager : heap.Eager) (engine : Engine) (function this : Value)
    (args : List Value) :
    (call engine function this args).on heap = heap.calling engine function this args := by
  cases function
  case object id =>
    unfold call calling
    simp only [Action.on_bind, (eager.ready _).on_read]
    cases heap.look id with
    | error fault => rfl
    | ok representation => cases representation <;> rfl
  all_goals rfl

theorem Eager.on_callSetter (eager : heap.Eager) (engine : Engine) (setter : Value) (key : Key)
    (receiver value : Value) :
    (judgeSetter engine (some setter) key receiver value).on heap =
      (heap.calling engine setter receiver [value]).map fun ended =>
        (ended.1.map fun _ => .accepted, ended.2) := by
  unfold judgeSetter
  rw [Action.on_bind, Action.on_discard, eager.on_call]
  rcases heap.calling engine setter receiver [value] with _ | ⟨_ | result, after⟩ <;> rfl

theorem Eager.on_put (eager : heap.Eager) (engine : Engine) {id : ObjectId} {object : Object}
    (seen : heap.examine id = .ok object) (key : Key) (value : Value)
    (plain : key.isProto = true → (object.getOwn key).isSome = true) :
    (judgePut engine id key value).on heap =
      match (object.getOwn key).map Slot.descriptor with
      | some (.accessor _ set _) => (judgeSetter engine set key (.object id) value).on heap
      | some (.data ..) => (judge engine id (·.write key value)).on heap
      | none => (judgeInherited engine id key value).on heap := by
  unfold judgePut
  have inspected := eager.on_inspect engine id
  rw [seen] at inspected
  rw [Action.on_bind_ok inspected]
  cases found : object.getOwn key with
  | some slot =>
    simp only [Option.map_some]
    cases slot.descriptor <;> rfl
  | none =>
    rw [found] at plain
    simp only [Option.map_none]
    split
    next isProto => cases plain isProto
    next => rfl

/-- Heaps that differ in nothing but one native object. -/
structure Replaced (before after : Heap) (id : ObjectId) (next : Object) : Prop where
  object : after.native? id = some next
  others : ∀ other, other ≠ id → after.cell? other = before.cell? other
  policy : after.policy = before.policy
  collections : after.collections = before.collections
  names : after.names = before.names
  log : after.log = before.log

/-- The heap with another object in the cell of a handle. -/
def exchange (heap : Heap) (id : ObjectId) (next : Object) : Heap :=
  match heap.cell? id with
  | some cell => heap.store id cell next
  | none => heap

/-- The outcome of a mutation, which fails if somebody holds the cell of the object. -/
def unlessHeld {α : Type} (heap : Heap) (id : ObjectId) (outcome : Except Fault α × Heap) :
    Except Fault α × Heap :=
  match (heap.cell? id).map ObjectCell.borrow with
  | some .free => outcome
  | _ => (.error (.internal .alreadyBorrowed), heap)

theorem unlessHeld_of_free {α : Type} {id : ObjectId} {cell : ObjectCell Representation}
    (found : heap.cell? id = some cell) (free : cell.borrow = .free)
    (outcome : Except Fault α × Heap) : heap.unlessHeld id outcome = outcome := by
  simp only [unlessHeld, found, Option.map_some, free]

section Mutating

variable {id : ObjectId} {object : Object}

theorem exists_cell (native : heap.native? id = some object) :
    ∃ cell, heap.cell? id = some cell ∧ cell.value.native? = some object :=
  Option.bind_eq_some_iff.mp native

theorem kind_ne_host (native : heap.native? id = some object) : object.kind ≠ .host := by
  obtain ⟨cell, _, nativeCell⟩ := exists_cell native
  exact ((native?_eq_some_iff heap).mp nativeCell).2

theorem exchange_eq (native : heap.native? id = some object) {cell : ObjectCell Representation}
    (found : heap.cell? id = some cell) (next : Object) :
    heap.exchange id next = heap.setCell id { cell with value := represent cell.value next } := by
  obtain ⟨own, foundOwn, nativeOwn⟩ := exists_cell native
  rw [found] at foundOwn
  cases foundOwn
  simp only [exchange, found, store]
  split
  next host _ isHost _ =>
    rw [isHost] at nativeOwn
    cases nativeOwn
  next => rfl

theorem replaced_exchange (native : heap.native? id = some object) {next : Object}
    (kind : next.kind = object.kind) : heap.Replaced (heap.exchange id next) id next := by
  obtain ⟨cell, found, nativeCell⟩ := exists_cell native
  rw [exchange_eq native found]
  exact
    { object := by
        unfold native?
        rw [cell?_setCell found, if_pos rfl]
        exact native?_represent nativeCell kind
      others := by
        intro other different
        rw [cell?_setCell found, if_neg different]
      policy := rfl
      collections := rfl
      names := rfl
      log := rfl }

theorem exchange_self (native : heap.native? id = some object) :
    heap.exchange id object = heap := by
  obtain ⟨cell, found, nativeCell⟩ := exists_cell native
  rw [exchange_eq native found, represent_native nativeCell]
  exact setCell_self found

section Amending

variable {α : Type} {cell : ObjectCell Representation} (native : heap.native? id = some object)
  (found : heap.cell? id = some cell)

include native found

theorem view?_of_native : heap.view? cell.value = some object := by
  obtain ⟨own, foundOwn, nativeCell⟩ := exists_cell native
  cases found.symm.trans foundOwn
  exact ((native?_eq_some_iff heap).mp nativeCell).1

theorem on_judge_free (free : cell.borrow = .free) (engine : Engine)
    (change : Object → Except Fault (α × Object)) :
    (judge engine id change).on heap =
      some (match change object with
        | .error fault => (.error fault, heap)
        | .ok (result, next) => (.ok result, heap.exchange id next)) := by
  have viewed := view?_of_native native found
  have stored (next : Object) : heap.store id cell next = heap.exchange id next := by
    simp only [exchange, found]
  have grasped : heap.grasp id = .ok (cell, object) := by rw [grasp_eq found viewed, free]
  rw [(ready_of_view found viewed).on_judge, grasped]
  cases changed : change object with
  | error fault => simp only [changed]
  | ok ended => simp only [changed, stored]

theorem on_judge_held (held : cell.borrow ≠ .free) (engine : Engine)
    (change : Object → Except Fault (α × Object)) :
    ∃ fault, (judge engine id change).on heap = some (.error fault, heap) := by
  have viewed := view?_of_native native found
  rw [(ready_of_view found viewed).on_judge, grasp_eq found viewed]
  cases borrow : cell.borrow with
  | free => exact absurd borrow held
  | shared readers => exact ⟨_, rfl⟩
  | exclusive => exact ⟨_, rfl⟩

end Amending

/-- A mutation of a native object either fails or exchanges the object. -/
theorem Eager.on_judge_native {α : Type} (eager : heap.Eager) (engine : Engine)
    (native : heap.native? id = some object) (seen : heap.examine id = .ok object)
    (change : Object → Except Fault (α × Object)) :
    (judge engine id change).on heap =
      some (heap.unlessHeld id (match change object with
        | .error fault => (.error fault, heap)
        | .ok (result, next) => (.ok result, heap.exchange id next))) := by
  obtain ⟨cell, found, _⟩ := exists_cell native
  cases borrow : cell.borrow with
  | free =>
    rw [unlessHeld_of_free found borrow]
    exact on_judge_free native found borrow engine change
  | shared readers =>
    have grasped := grasp_eq found (view?_of_native native found)
    rw [borrow] at grasped
    simp only [(eager.ready id).on_judge, grasped, unlessHeld, found, Option.map_some, borrow]
  | exclusive =>
    -- An object that is being modified cannot have been seen.
    have unseen : heap.examine id = .error (.internal .beingModified) := by
      simp only [examine, look, held, found, Except.bind, ObjectCell.read, borrow]
    rw [unseen] at seen
    cases seen

theorem Eager.on_report_judge (eager : heap.Eager) (engine : Engine)
    (native : heap.native? id = some object) (seen : heap.examine id = .ok object)
    (change : Object → Except Fault (Verdict × Object)) (strict : Bool) :
    ((judge engine id change).report strict).on heap =
      some (heap.unlessHeld id (match change object with
        | .error fault => (.error fault, heap)
        | .ok (verdict, next) => (verdict.report strict, heap.exchange id next))) := by
  rw [on_report, eager.on_judge_native engine native seen]
  simp only [unlessHeld, Option.map_some]
  split
  next =>
    cases change object with
    | error fault => rfl
    | ok changed => rfl
  next => rfl

end Mutating

/-- How an object gains a property by an assignment. -/
def Gains (heap : Heap) (id : ObjectId) (object : Object) (key : Key) (value : Value)
    (strict : Bool) (run : Option (Except Fault Bool × Heap)) : Prop :=
  if object.isExtensible then
    match object.room key with
    | .error fault => run = some (heap.unlessHeld id (.error fault, heap))
    | .ok (.refused why) =>
      run = some (heap.unlessHeld id ((Verdict.refused why).report strict, heap))
    | .ok .accepted =>
      ∃ next after, run = some (heap.unlessHeld id (.ok true, after)) ∧
        heap.Replaced after id next ∧ object.Gained next key value
  else
    run = some (heap.unlessHeld id ((Verdict.refused (.notExtensible key)).report strict, heap))

/-- How an assignment to a property of a native object runs, given the property at the key of the
first holder on the chain of the object. -/
def Assigns (heap : Heap) (engine : Engine) (id : ObjectId) (object : Object) (key : Key)
    (value : Value) (strict : Bool) (slot : Option Slot)
    (run : Option (Except Fault Bool × Heap)) : Prop :=
  match slot.map Slot.descriptor with
  | some (.accessor _ (some setter) _) =>
    -- The setter is called with the object and the value; nothing else happens.
    run = (heap.calling engine setter (.object id) [value]).map fun ended =>
      (ended.1.map fun _ => true, ended.2)
  | some (.accessor _ none _) =>
    run = some ((Verdict.refused (.getterOnly key)).report strict, heap)
  | some (.data _ attributes) =>
    match object.getOwn key with
    | some _ =>
      if attributes.writable then
        ∃ next after, run = some (heap.unlessHeld id (.ok true, after)) ∧
          heap.Replaced after id next ∧ next.kind = object.kind ∧
          object.view.Overwritten next.view key value attributes
      else
        ∃ why : Refusal, why.IsReadOnly key ∧
          run = some (heap.unlessHeld id ((Verdict.refused why).report strict, heap))
    | none =>
      if attributes.writable then heap.Gains id object key value strict run
      else run = some ((Verdict.refused (.readOnly key)).report strict, heap)
  | none => heap.Gains id object key value strict run

section Deciding

variable {engine : Engine} {id : ObjectId} {object : Object} {key : Key} {value : Value}
  {strict : Bool}

theorem Eager.on_report_callSetter (eager : heap.Eager) (engine : Engine) (setter : Value)
    (key : Key) (receiver value : Value) (strict : Bool) :
    ((judgeSetter engine (some setter) key receiver value).report strict).on heap =
      (heap.calling engine setter receiver [value]).map fun ended =>
        (ended.1.map fun _ => true, ended.2) := by
  rw [on_report, eager.on_callSetter]
  rcases heap.calling engine setter receiver [value] with _ | ⟨_ | result, after⟩ <;> rfl

theorem Eager.on_report_put (eager : heap.Eager) (engine : Engine)
    (seen : heap.examine id = .ok object) (key : Key) (value : Value) (strict : Bool)
    (plain : key.isProto = true → (object.getOwn key).isSome = true) :
    ((judgePut engine id key value).report strict).on heap =
      match (object.getOwn key).map Slot.descriptor with
      | some (.accessor _ set _) =>
        ((judgeSetter engine set key (.object id) value).report strict).on heap
      | some (.data ..) => ((judge engine id (·.write key value)).report strict).on heap
      | none => ((judgeInherited engine id key value).report strict).on heap := by
  simp only [on_report, eager.on_put engine seen key value plain]
  split <;> rfl

theorem Eager.assigns_of_own (eager : heap.Eager) (native : heap.native? id = some object)
    (seen : heap.examine id = .ok object)
    (notLength : object.kind = .array → key.isLength = false) {own : Slot}
    (found : object.getOwn key = some own) :
    heap.Assigns engine id object key value strict (some own)
      (((judgePut engine id key value).report strict).on heap) := by
  have notHost := kind_ne_host native
  have plain : key.isProto = true → (object.getOwn key).isSome = true := by
    intro _
    rw [found]
    rfl
  rw [eager.on_report_put engine seen key value strict plain]
  unfold Assigns
  rw [found, Option.map_some]
  cases data : own.descriptor with
  | accessor get set attributes =>
    cases set with
    | none => exact on_report strict _ heap
    | some setter => exact eager.on_report_callSetter engine setter key _ value strict
  | data old attributes =>
    simp only [eager.on_report_judge engine native seen]
    split
    next writable =>
      obtain ⟨next, written, kind, overwritten⟩ :=
        object.overwritten_write notHost notLength found data writable value
      refine ⟨next, heap.exchange id next, ?_, replaced_exchange native kind, kind, overwritten⟩
      rw [written]
      rfl
    next readOnly =>
      obtain ⟨why, isReadOnly, refused⟩ :=
        object.write_of_readOnly notHost notLength found data (Bool.eq_false_iff.mpr readOnly) value
      refine ⟨why, isReadOnly, ?_⟩
      -- A refused write stores the object as it was.
      simp only [refused, exchange_self native]

theorem Eager.gains_of_absent (eager : heap.Eager) (native : heap.native? id = some object)
    (seen : heap.examine id = .ok object) (absent : object.getOwn key = none) :
    heap.Gains id object key value strict
      (((judge engine id (·.add key value)).report strict).on heap) := by
  have notHost := kind_ne_host native
  rw [eager.on_report_judge engine native seen]
  unfold Gains
  split
  next extensible =>
    have added := object.add_of_extensible notHost absent extensible value
    split
    next fault noRoom =>
      simp only [noRoom] at added
      rw [added]
    next why noRoom =>
      simp only [noRoom] at added
      simp only [added, exchange_self native]
    next hasRoom =>
      simp only [hasRoom] at added
      obtain ⟨next, added, gained⟩ := added
      refine ⟨next, heap.exchange id next, ?_, replaced_exchange native gained.kind, gained⟩
      rw [added]
      rfl
  next closed =>
    have refused := object.add_of_closed notHost absent (Bool.eq_false_iff.mpr closed) value
    simp only [refused, exchange_self native]

theorem Eager.assigns_of_absent (eager : heap.Eager) (native : heap.native? id = some object)
    (seen : heap.examine id = .ok object) (plain : key.isProto = false)
    (absent : object.getOwn key = none) {held : Option Slot}
    (inherits : (inherited engine id key).on heap = some (.ok held, heap)) :
    heap.Assigns engine id object key value strict held
      (((judgePut engine id key value).report strict).on heap) := by
  have ordinary : key.isProto = true → (object.getOwn key).isSome = true := by
    rw [plain]
    exact nofun
  have gains : heap.Gains id object key value strict
      (((judge engine id (·.add key value)).report strict).on heap) :=
    eager.gains_of_absent native seen absent
  rw [eager.on_report_put engine seen key value strict ordinary, absent]
  simp only [Option.map_none]
  unfold judgeInherited
  rw [on_report, Action.on_bind_ok inherits, ← on_report]
  unfold Assigns judgeUnder
  cases held.map Slot.descriptor with
  | none => exact gains
  | some descriptor =>
    cases descriptor with
    | accessor get set attributes =>
      cases set with
      | none => exact on_report strict _ heap
      | some setter => exact eager.on_report_callSetter engine setter key _ value strict
    | data old attributes =>
      simp only [absent]
      split
      next writable => exact gains
      next readOnly => exact on_report strict _ heap

/-- An assignment to a property of a native object, other than the length of an array and the
prototype link, does what the first holder of the key on the chain of the object decides. -/
theorem Eager.put_assigns (eager : heap.Eager) (engine : Engine)
    (native : heap.native? id = some object) {rest : List Object}
    (chain : heap.Chain id (object :: rest)) (fits : rest.length ≤ heap.policy.maxPrototypeDepth)
    (notLink : key.isProto = true → (object.getOwn key).isSome = true)
    (notLength : object.kind = .array → key.isLength = false) (value : Value) (strict : Bool) :
    heap.Assigns engine id object key value strict
      ((object :: rest).findSome? fun holder => holder.getOwn key)
      (((Command.put id key value strict).execute engine).on heap) := by
  rw [Command.execute_put]
  have seen := chain.examine_eq
  rw [List.findSome?_cons]
  cases found : object.getOwn key with
  | some own => exact eager.assigns_of_own native seen notLength found
  | none =>
    have plain : key.isProto = false := by
      apply Bool.eq_false_iff.mpr
      intro isProto
      have own := notLink isProto
      rw [found] at own
      cases own
    exact eager.assigns_of_absent native seen plain found
      (chain.on_inherited eager fits engine key)

end Deciding

/-- An object with a locked property. -/
def guardian : OrdinaryObject :=
  { OrdinaryObject.new none with
    properties := .insert .empty (.index 0) (.described (.data .null .locked)) }

/-- An empty array that inherits from that object. -/
def ward : ArrayObject := .new (some ⟨1⟩) {}

def guardedHeap : Heap where
  cells := #[.new (.array ward), .new (.ordinary guardian)]
  policy := {}
  collections := #[]
  names := []
  log := []

theorem guardedHeap_eager : guardedHeap.Eager := by
  rintro ⟨_ | _ | index⟩ cell found
  · cases found
    rfl
  · cases found
    rfl
  · cases found

theorem put_assigns_guardedHeap :
    guardedHeap.Eager ∧ guardedHeap.native? ⟨0⟩ = some (.array ward) ∧
      guardedHeap.Chain ⟨0⟩ [.array ward, .ordinary guardian] ∧
      [Object.ordinary guardian].length ≤ guardedHeap.policy.maxPrototypeDepth ∧
      (Key.index 0).isProto = false ∧ (Key.index 0).isLength = false ∧
      ((Command.put ⟨0⟩ (.index 0) .null false).execute (.within 0)).on guardedHeap =
        some (.ok false, guardedHeap) := by
  have native : guardedHeap.native? ⟨0⟩ = some (.array ward) := rfl
  have chain : guardedHeap.Chain ⟨0⟩ [.array ward, .ordinary guardian] :=
    .link rfl rfl (.last rfl rfl)
  have fits : [Object.ordinary guardian].length ≤ guardedHeap.policy.maxPrototypeDepth := by decide
  have notLink : (Key.index 0).isProto = false := rfl
  have assigns := guardedHeap_eager.put_assigns (.within 0) native chain fits
    (by rw [notLink]; exact nofun) (fun _ => rfl) .null false
  exact ⟨guardedHeap_eager, native, chain, fits, notLink, rfl, assigns⟩

end Heap

end ObjectModel
