import ObjectModel.Proofs.Heap.Assignment

/-!
# Assignments that are decided before they are made

To write a property the object and its prototypes are looked at first, which may run the factories
of lazy prototypes, and what was seen decides what is done then.  If the property was there to be
seen, or the object has been closed by then, a locked property stays as it is.  Otherwise it may
have been defined in between, and then it is lost.
-/

namespace ObjectModel

namespace Object

variable {object next : Object} {key : Key} {slot : Slot} {old value : Value}
  {attributes : Attributes} {verdict : Verdict}

/-- To write a read-only property changes nothing, and the length of an array may even be written
again as it is. -/
theorem eq_of_write_readOnly (native : object.kind ≠ .host)
    (found : object.getOwn key = some slot) (data : slot.descriptor = .data old attributes)
    (readOnly : attributes.writable = false)
    (written : object.write key value = .ok (verdict, next)) : next = object := by
  by_cases isLength : object.kind = .array ∧ key.isLength = true
  · obtain ⟨isArray, isLength⟩ := isLength
    cases object
    case array inner =>
      cases key with
      | index i => cases isLength
      | named text =>
        have slotLength : slot = inner.lengthSlot := by
          simp only [getOwn, ArrayObject.getOwn, isLength, if_true] at found
          exact (Option.some.inj found).symm
        have fixed : inner.lengthWritable = false := by
          rw [slotLength] at data
          cases data
          exact readOnly
        have unchanged : ∀ length, (inner.setLength length).2 = inner := by
          intro length
          unfold ArrayObject.setLength
          split
          next => rfl
          next => rw [if_neg (by rw [fixed]; exact Bool.false_ne_true)]
        simp only [write, ArrayObject.write, isLength, if_true] at written
        obtain ⟨ended, wrote, same⟩ := exists_of_map_eq_ok written
        obtain ⟨length, _, resized⟩ := exists_of_bind_eq_ok wrote
        cases resized
        cases same
        exact congrArg Object.array (unchanged length)
    all_goals cases isArray
  · have other : object.kind = .array → key.isLength = false := by
      intro isArray
      exact Bool.eq_false_iff.mpr fun isLengthToo => isLength ⟨isArray, isLengthToo⟩
    obtain ⟨why, _, refused⟩ := write_of_readOnly native other found data readOnly value
    rw [refused] at written
    cases written
    rfl

theorem eq_of_add_closed (native : object.kind ≠ .host) (closed : object.isExtensible = false)
    (added : object.add key value = .ok (verdict, next)) : next = object := by
  cases object with
  | ordinary inner =>
    have closedInner : inner.extensible = false := closed
    simp only [add, OrdinaryObject.add_of_closed closedInner key value] at added
    cases added
    rfl
  | function base =>
    have closedBase : base.extensible = false := closed
    simp only [add, OrdinaryObject.add_of_closed closedBase key value] at added
    cases added
    rfl
  | string inner =>
    have closedBase : inner.base.extensible = false := closed
    simp only [add, StringObject.add, OrdinaryObject.add_of_closed closedBase key value] at added
    split at added <;> cases added <;> rfl
  | array inner =>
    simp only [add, ArrayObject.add_of_closed closed key value] at added
    cases added
    rfl
  | map view => exact absurd rfl native
  | sequence view => exact absurd rfl native

end Object

namespace Heap

variable {heap moment : Heap} {engine : Engine} {id : ObjectId} {object : Object} {key : Key}
  {value old : Value} {slot : Slot} {attributes : Attributes}

/-- What is to be done to write a property. -/
inductive Decision
  /-- Overwrite an own property. -/
  | overwrite
  /-- Add a property that the object has not had. -/
  | add
  | call (setter : Option Value)
  | relink (prototype : Option ObjectId)
  /-- Do nothing, for what is no object cannot be a prototype. -/
  | ignore
  /-- Refuse, for an inherited property is read-only. -/
  | refuse
  deriving DecidableEq

/-- Whether the object itself is to store the value. -/
def Decision.stores : Decision → Bool
  | .overwrite | .add => true
  | .call _ | .relink _ | .ignore | .refuse => false

/-- Decide what is to be done to write a property. -/
def deliberate (engine : Engine) (id : ObjectId) (key : Key) (value : Value) : Action Decision := do
  match ((← inspect engine id).getOwn key).map Slot.descriptor with
  | some (.accessor _ set _) => return .call set
  | some (.data ..) => return .overwrite
  | none =>
    if key.isProto then
      match value with
      | .object next => return .relink (some next)
      | .null => return .relink none
      | _ => return .ignore
    else
      match (← inherited engine id key).map Slot.descriptor with
      | some (.accessor _ set _) => return .call set
      | some (.data _ attributes) => return if attributes.writable then .add else .refuse
      | none => return .add

/-- Do what has been decided. -/
def Decision.perform (engine : Engine) (id : ObjectId) (key : Key) (value : Value) :
    Decision → Action Verdict
  | .overwrite => judge engine id (·.write key value)
  | .add => judge engine id (·.add key value)
  | .call set => judgeSetter engine set key (.object id) value
  | .relink prototype => judgePrototype engine id prototype
  | .ignore => return .accepted
  | .refuse => return .refused (.readOnly key)

theorem put_eq_deliberate (engine : Engine) (id : ObjectId) (key : Key) (value : Value) :
    judgePut engine id key value =
      deliberate engine id key value >>= Decision.perform engine id key value := by
  unfold judgePut deliberate
  rw [bind_assoc]
  apply bind_congr
  intro object
  rcases (object.getOwn key).map Slot.descriptor with _ | _ | _
  case none =>
    simp only
    cases key.isProto with
    | true => cases value <;> rfl
    | false =>
      simp only [Bool.false_eq_true, if_false]
      unfold judgeInherited
      rw [bind_assoc]
      apply bind_congr
      intro inherited
      unfold judgeUnder
      rcases inherited.map Slot.descriptor with _ | ⟨_, attributes⟩ | _
      case some.data =>
        simp only [pure_bind]
        cases attributes.writable <;> rfl
      all_goals rfl
  all_goals rfl

/-- An amendment that would not change the object changes nothing at all. -/
theorem on_judge_unchanged {α : Type} (native : heap.native? id = some object) (engine : Engine)
    {change : Object → Except Fault (α × Object)}
    (unchanged : ∀ result next, change object = .ok (result, next) → next = object) :
    ∃ outcome, (judge engine id change).on heap = some (outcome, heap) := by
  obtain ⟨cell, found, _⟩ := exists_cell native
  by_cases free : cell.borrow = .free
  · rw [on_judge_free native found free]
    cases changed : change object with
    | error fault => exact ⟨_, rfl⟩
    | ok ended =>
      obtain ⟨result, next⟩ := ended
      rw [unchanged result next changed]
      simp only [exchange_self native]
      exact ⟨_, rfl⟩
  · obtain ⟨fault, ran⟩ := on_judge_held native found free engine change
    exact ⟨_, ran⟩

/-- A property that is read-only when the value is to be stored stays as it is, and so does all
else, if the property was already seen when the decision was made, or if the object has been closed
since. -/
theorem on_put_readOnly {decision : Decision}
    (decided : (deliberate engine id key value).on heap = some (.ok decision, moment))
    (stores : decision.stores = true) (native : moment.native? id = some object)
    (found : object.getOwn key = some slot) (data : slot.descriptor = .data old attributes)
    (readOnly : attributes.writable = false)
    (settled : decision = .overwrite ∨ object.isExtensible = false) (strict : Bool) :
    ∃ outcome, ((Command.put id key value strict).execute engine).on heap =
      some (outcome, moment) := by
  obtain ⟨cell, _, nativeValue⟩ := Option.bind_eq_some_iff.mp native
  have notHost := ((native?_eq_some_iff moment).mp nativeValue).2
  obtain ⟨outcome, ran⟩ : ∃ outcome,
      (decision.perform engine id key value).on moment = some (outcome, moment) := by
    cases decision
    case overwrite =>
      apply on_judge_unchanged native
      intro verdict next written
      exact Object.eq_of_write_readOnly notHost found data readOnly written
    case add =>
      have closed := settled.resolve_left nofun
      apply on_judge_unchanged native
      intro verdict next added
      exact Object.eq_of_add_closed notHost closed added
    all_goals cases stores
  refine ⟨outcome.bind (Verdict.report strict), ?_⟩
  rw [Command.execute_put, on_report, put_eq_deliberate, Action.on_bind_ok decided, ran]
  rfl

/-- A heap with an object whose prototype is lazy.  When the prototype is constructed, the object
gets a locked property and possibly is closed. -/
def trappedHeap (closing : Bool) : Heap :=
  let built : Code .representation := .build (.ordinary (.new none))
  { new {} with
    cells := (new {}).cells ++
      #[.new (.pending (.ask (.define ⟨5⟩ .name { value := some .null } true) fun _ =>
          if closing then .ask (.preventExtensions ⟨5⟩) fun _ => built else built)),
        .new (.ordinary (.new (some ⟨4⟩)))] }

/-- The property that the object gets stays locked if the object is closed along with it. -/
theorem on_put_trappedHeap_closing :
    ∃ outcome moment object,
      (deliberate (.within 2) ⟨5⟩ .name (.boolean true)).on (trappedHeap true) =
        some (.ok .add, moment) ∧
      moment.native? ⟨5⟩ = some object ∧
      object.getOwn .name = some (.described (.data .null .locked)) ∧
      ((Command.put ⟨5⟩ .name (.boolean true) true).execute (.within 2)).on (trappedHeap true) =
        some (outcome, moment) := by
  obtain ⟨moment, object, decided, native, found, closed⟩ : ∃ moment object,
      (deliberate (.within 2) ⟨5⟩ .name (.boolean true)).on (trappedHeap true) =
        some (.ok .add, moment) ∧
      moment.native? ⟨5⟩ = some object ∧
      object.getOwn .name = some (.described (.data .null .locked)) ∧
      object.isExtensible = false := ⟨_, _, rfl, rfl, rfl, rfl⟩
  obtain ⟨outcome, ran⟩ := on_put_readOnly decided rfl native found rfl rfl (.inr closed) true
  exact ⟨outcome, moment, object, decided, native, found, ran⟩

/-- If the object is left open, the property is overwritten, attributes and all: the decision to add
it was made when it was not there. -/
theorem on_put_trappedHeap_open :
    ∃ moment after,
      (deliberate (.within 2) ⟨5⟩ .name (.boolean true)).on (trappedHeap false) =
        some (.ok .add, moment) ∧
      (moment.native? ⟨5⟩).bind (·.getOwn .name) =
        some (.described (.data .null .locked)) ∧
      ((Command.put ⟨5⟩ .name (.boolean true) true).execute (.within 2)).on (trappedHeap false) =
        some (.ok true, after) ∧
      (after.native? ⟨5⟩).bind (·.getOwn .name) = some (.bare (.boolean true)) :=
  ⟨_, _, rfl, rfl, rfl, rfl⟩

end Heap

end ObjectModel
