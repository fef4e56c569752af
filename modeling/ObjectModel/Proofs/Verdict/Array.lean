import ObjectModel.Object.Array
import ObjectModel.Proofs.Verdict.Ordinary

/-!
# Verdicts of arrays

The verdict on each mutation and the array after it.  The mutations report them, the partial shrink
included: whether the length is moved for a strict or for a lenient caller, or for a definition that
keeps the refusal to itself, makes no difference to the array.
-/

namespace ObjectModel.ArrayObject

/-- Move the length to `target` and drop the elements from there on.  An element that is not
configurable stops the shrinking just above itself; the partial shrink stays. -/
def truncate (array : ArrayObject) (target : Nat) : Verdict × ArrayObject :=
  let shrink := fun bound =>
    { (if target < array.length then array.dropFrom bound else array) with length := bound }
  match array.blocker? target with
  | some index => (.refused (.redefinition .length), shrink (index + 1))
  | none => (.accepted, shrink target)

def setLength (array : ArrayObject) (length : Nat) : Verdict × ArrayObject :=
  if length = array.length then (.accepted, array)
  else if array.lengthWritable then array.truncate length
  else (.refused (.readOnlyOf .length .array), array)

/-- The array after its `length` may have been made read-only, and whether the whole definition of
`length` took place. -/
def defineWritable (array : ArrayObject) (resized : Verdict) (request : Request) :
    Verdict × ArrayObject :=
  (if resized = .accepted ∧ (array.lengthWritable ∨ request.writable ≠ some true) then .accepted
    else .refused (.redefinition .length),
    { array with lengthWritable := array.lengthWritable && request.writable.getD true })

/-- A definition of `length` assigns the length, and then may make it read-only. -/
def defineLength (array : ArrayObject) (request : Request) : Except Fault (Verdict × ArrayObject) :=
  if request.configurable == some true || request.enumerable == some true || request.isAccessor then
    .ok (.refused (.redefinition .length), array)
  else
    match request.value with
    | none => .ok (array.defineWritable .accepted request)
    | some value => (toArrayLength value).map fun length =>
        (array.setLength length).2.defineWritable (array.setLength length).1 request

def cover (array : ArrayObject) (index : Nat) : Except Fault (Verdict × ArrayObject) :=
  if index < array.length then .ok (.accepted, array)
  else if index < maxArrayLength then .ok (array.setLength (index + 1))
  else .error (.range .arrayLength)

def place (array : ArrayObject) (index : Nat) (slot : Slot) :
    Except Fault (Verdict × ArrayObject) := do
  match ← array.cover index with
  | (.accepted, covering) => return (.accepted, covering.store index slot)
  | refused => return refused

def add (array : ArrayObject) (key : Key) (value : Value) : Except Fault (Verdict × ArrayObject) :=
  match key with
  | .index i =>
    if array.base.extensible then array.place i.toNat (.bare value)
    else .ok (.refused (.notExtensible key), array)
  | .named _ =>
    let (verdict, base) := array.base.add key value
    .ok (verdict, { array with base })

def write (array : ArrayObject) (key : Key) (value : Value) :
    Except Fault (Verdict × ArrayObject) :=
  match key with
  | .index i =>
    match array.element? i.toNat with
    | none => array.add key value
    | some slot =>
      match slot.write? value with
      | some written =>
        .ok (.accepted, { array with elements := array.elements.modify i.toNat written })
      | none => .ok (.refused (.readOnlyOf key .array), array)
  | .named _ =>
    if key.isLength then do
      let length ← toArrayLength value
      return array.setLength length
    else
      let (verdict, base) := array.base.write key value
      .ok (verdict, { array with base })

def define (array : ArrayObject) (key : Key) (request : Request) :
    Except Fault (Verdict × ArrayObject) :=
  match key with
  | .index i => do
    match ← resolution key (array.element? i.toNat) request array.base.extensible with
    | .stored slot => array.place i.toNat slot
    | .refused why => return (.refused why, array)
  | .named _ =>
    if key.isLength then array.defineLength request
    else do
      let (verdict, base) ← array.base.define key request
      return (verdict, { array with base })

def delete (array : ArrayObject) (key : Key) : Verdict × ArrayObject :=
  match key with
  | .index i =>
    match array.element? i.toNat with
    | none => (.accepted, array)
    | some slot =>
      if slot.isConfigurable then
        (.accepted,
          { array with
            elements := array.elements.clear i.toNat
            elementCount := array.elementCount - 1
            describedCount := array.describedCount - slot.isDescribed.toNat })
      else (.refused (.deletion key .array), array)
  | .named _ =>
    if key.isLength then (.refused (.deletion .length .array), array)
    else
      let (verdict, base) := array.base.delete key
      (verdict, { array with base })

variable {strict : Bool} (array : ArrayObject) (key : Key) (value : Value) (request : Request)

theorem on_moveLength (target : Nat) :
    (moveLength target strict).on array =
      Verdict.settle strict array (.ok (array.truncate target)) := by
  simp only [moveLength, truncate, Mutation.on_bind, Mutation.on_get]
  cases array.blocker? target with
  | none => by_cases shrinks : target < array.length <;> simp only [shrinks] <;> rfl
  | some index => by_cases shrinks : target < array.length <;> simp only [shrinks] <;> rfl

theorem on_assignLength (length : Nat) :
    (assignLength length strict).on array =
      Verdict.settle strict array (.ok (array.setLength length)) := by
  simp only [assignLength, setLength, Mutation.on_bind, Mutation.on_get]
  split
  next => rfl
  next =>
    cases array.lengthWritable with
    | true => exact array.on_moveLength length
    | false => rfl

/-- A length that is named is assigned for a lenient caller, whoever defines it. -/
theorem on_nameLength {length : Nat} (isLength : toArrayLength value = .ok length) :
    (nameLength (some value)).on array =
      (.ok ((array.setLength length).1 == .accepted), (array.setLength length).2) := by
  have assigned : (assignLength length false).on array = _ := array.on_assignLength length
  rw [Verdict.settle_ok, Verdict.report_lenient] at assigned
  rw [← assigned]
  simp only [nameLength, assignLength, Mutation.on_bind, Mutation.on_ofExcept, Mutation.on_get,
    isLength]
  split
  next => rfl
  next => split <;> rfl

theorem on_nameLengthWritable (named : Option Bool) :
    (nameLengthWritable named).on array =
      (.ok (array.lengthWritable || named != some true),
        { array with lengthWritable := array.lengthWritable && named.getD true }) := by
  obtain ⟨base, elements, length, lengthWritable, count, described, policy⟩ := array
  rcases named with _ | _ | _ <;> cases lengthWritable <;> rfl

theorem on_finish (resized : Verdict) :
    (do
      let allowed ← nameLengthWritable request.writable
      if (resized == .accepted) && allowed then return true
      else Mutation.reject strict (.redefinition .length) : Mutation ArrayObject Bool).on array =
      Verdict.settle strict array (.ok (array.defineWritable resized request)) := by
  simp only [Mutation.on_bind, on_nameLengthWritable, defineWritable]
  cases resized <;> cases array.lengthWritable <;> rcases request.writable with _ | _ | _ <;> rfl

theorem on_defineLengthOwn :
    (defineLengthOwn request strict).on array =
      Verdict.settle strict array (array.defineLength request) := by
  simp only [defineLengthOwn, defineLength]
  split
  next => rfl
  next =>
    cases request.value with
    | none => exact array.on_finish request .accepted
    | some value =>
      rw [Mutation.on_bind]
      cases isLength : toArrayLength value with
      | error fault => simp [nameLength, Mutation.on_bind, isLength, Except.map]
      | ok length =>
        rw [array.on_nameLength value isLength]
        simp only [isLength, Except.map]
        exact (array.setLength length).2.on_finish request (array.setLength length).1

theorem on_coverIndex (index : Nat) :
    (coverIndex index strict).on array = Verdict.settle strict array (array.cover index) := by
  simp only [coverIndex, cover, Mutation.on_bind, Mutation.on_get]
  split
  next => rfl
  next =>
    split
    next => exact array.on_assignLength (index + 1)
    next => rfl

theorem on_placeOwn (index : Nat) (slot : Slot) :
    (placeOwn index slot strict).on array =
      Verdict.settle strict array (array.place index slot) := by
  simp only [placeOwn, place, Mutation.on_bind, on_coverIndex]
  rcases array.cover index with _ | ⟨_ | why, next⟩
  · rfl
  · rfl
  · cases strict <;> rfl

theorem on_onBase {mutation : Mutation OrdinaryObject Bool}
    {judged : Except Fault (Verdict × OrdinaryObject)}
    (settled : mutation.on array.base = Verdict.settle strict array.base judged) :
    (onBase mutation).on array = Verdict.settle strict array
      (judged.map fun ended => (ended.1, { array with base := ended.2 })) := by
  simp only [onBase, Mutation.on_bind, Mutation.on_get, Mutation.on_through, settled]
  exact Verdict.settle_map rfl

theorem on_addOwn :
    (addOwn key value strict).on array = Verdict.settle strict array (array.add key value) := by
  cases key with
  | index i =>
    simp only [addOwn, add, Mutation.on_bind, Mutation.on_get]
    cases array.base.extensible with
    | true => exact array.on_placeOwn i.toNat (.bare value)
    | false => rfl
  | named text => exact array.on_onBase (array.base.on_addOwn (.named text) value)

theorem on_writeOwn :
    (writeOwn key value strict).on array = Verdict.settle strict array (array.write key value) := by
  cases key with
  | index i =>
    simp only [writeOwn, write, Mutation.on_bind, Mutation.on_get]
    cases array.element? i.toNat with
    | none => exact array.on_addOwn (.index i) value
    | some slot =>
      dsimp only
      cases slot.write? value <;> rfl
  | named text =>
    simp only [writeOwn, write]
    split
    next =>
      simp only [Mutation.on_bind, Mutation.on_ofExcept]
      cases toArrayLength value with
      | error fault => rfl
      | ok length => exact array.on_assignLength length
    next => exact array.on_onBase (array.base.on_writeOwn (.named text) value)

theorem on_defineOwn :
    (defineOwn key request strict).on array =
      Verdict.settle strict array (array.define key request) := by
  cases key with
  | index i =>
    simp only [defineOwn, define, Mutation.on_bind, Mutation.on_get, Mutation.on_ofExcept,
      reconcile_eq]
    rcases resolution (.index i) (array.element? i.toNat) request array.base.extensible with
      _ | slot | why
    · rfl
    · exact array.on_placeOwn i.toNat slot
    · cases strict <;> rfl
  | named text =>
    simp only [defineOwn, define]
    split
    next => exact array.on_defineLengthOwn request
    next =>
      rw [array.on_onBase (array.base.on_defineOwn (.named text) request)]
      rfl

theorem on_deleteOwn :
    (deleteOwn key strict).on array =
      Verdict.settle strict array (.ok (array.delete key)) := by
  cases key with
  | index i =>
    simp only [deleteOwn, delete, Mutation.on_bind, Mutation.on_get]
    cases array.element? i.toNat with
    | none => rfl
    | some slot =>
      dsimp only
      cases slot.isConfigurable <;> rfl
  | named text =>
    simp only [deleteOwn, delete]
    split
    next => rfl
    next => exact array.on_onBase (array.base.on_deleteOwn (.named text))

end ObjectModel.ArrayObject
