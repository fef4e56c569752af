import ObjectModel.Object.String
import ObjectModel.Proofs.Verdict.Property

/-!
# Verdicts of ordinary and string objects

The verdict on each mutation and the object after it.  The mutations report them.
-/

namespace ObjectModel

variable {strict : Bool}

namespace OrdinaryObject

def add (object : OrdinaryObject) (key : Key) (value : Value) : Verdict × OrdinaryObject :=
  if object.extensible then (.accepted, object.store key (.bare value))
  else (.refused (.notExtensible key), object)

def write (object : OrdinaryObject) (key : Key) (value : Value) : Verdict × OrdinaryObject :=
  match object.getOwn key with
  | none => object.add key value
  | some slot =>
    match slot.write? value with
    | some written => (.accepted, object.store key written)
    | none => (.refused (.readOnly key), object)

def define (object : OrdinaryObject) (key : Key) (request : Request) :
    Except Fault (Verdict × OrdinaryObject) := do
  match ← resolution key (object.getOwn key) request object.extensible with
  | .stored slot => return (.accepted, object.store key slot)
  | .refused why => return (.refused why, object)

def delete (object : OrdinaryObject) (key : Key) : Verdict × OrdinaryObject :=
  match object.getOwn key with
  | none => (.accepted, object)
  | some slot =>
    if slot.isConfigurable then
      (.accepted, { object with properties := object.properties.erase key })
    else (.refused (.deletion key .object), object)

variable (object : OrdinaryObject) (key : Key) (value : Value) (request : Request)

theorem on_addOwn :
    (addOwn key value strict).on object =
      Verdict.settle strict object (.ok (object.add key value)) := by
  simp only [addOwn, add, Mutation.on_bind, Mutation.on_get]
  cases object.extensible <;> rfl

theorem on_writeOwn :
    (writeOwn key value strict).on object =
      Verdict.settle strict object (.ok (object.write key value)) := by
  simp only [writeOwn, write, Mutation.on_bind, Mutation.on_get]
  cases object.getOwn key with
  | none => exact object.on_addOwn key value
  | some slot =>
    dsimp only
    cases slot.write? value <;> rfl

theorem on_defineOwn :
    (defineOwn key request strict).on object =
      Verdict.settle strict object (object.define key request) := by
  simp only [defineOwn, define, Mutation.on_bind, Mutation.on_get, Mutation.on_ofExcept,
    reconcile_eq]
  rcases resolution key (object.getOwn key) request object.extensible with _ | _ | why
  · rfl
  · rfl
  · cases strict <;> rfl

theorem on_deleteOwn :
    (deleteOwn key strict).on object =
      Verdict.settle strict object (.ok (object.delete key)) := by
  simp only [deleteOwn, delete, Mutation.on_bind, Mutation.on_get]
  cases object.getOwn key with
  | none => rfl
  | some slot =>
    dsimp only
    cases slot.isConfigurable <;> rfl

end OrdinaryObject

namespace StringObject

def write (string : StringObject) (key : Key) (value : Value) : Verdict × StringObject :=
  if (string.fixed? key).isSome then (.refused (.readOnlyOf key .string), string)
  else
    let (verdict, base) := string.base.write key value
    (verdict, { string with base })

def add (string : StringObject) (key : Key) (value : Value) : Verdict × StringObject :=
  if (string.fixed? key).isSome then (.refused (.readOnlyOf key .string), string)
  else
    let (verdict, base) := string.base.add key value
    (verdict, { string with base })

/-- Define a property as requested; of the properties of the text only what changes nothing is
accepted. -/
def define (string : StringObject) (key : Key) (request : Request) :
    Except Fault (Verdict × StringObject) := do
  match string.fixed? key with
  | some slot =>
    match ← resolution key (some slot) request true with
    | .stored _ => return (.accepted, string)
    | .refused why => return (.refused why, string)
  | none =>
    let (verdict, base) ← string.base.define key request
    return (verdict, { string with base })

def delete (string : StringObject) (key : Key) : Verdict × StringObject :=
  if (string.fixed? key).isSome then (.refused (.deletion key .string), string)
  else
    let (verdict, base) := string.base.delete key
    (verdict, { string with base })

variable (string : StringObject) (key : Key) (value : Value) (request : Request)

theorem on_onBase {mutation : Mutation OrdinaryObject Bool}
    {judged : Except Fault (Verdict × OrdinaryObject)}
    (settled : mutation.on string.base = Verdict.settle strict string.base judged) :
    (onBase mutation).on string = Verdict.settle strict string
      (judged.map fun ended => (ended.1, { string with base := ended.2 })) := by
  simp only [onBase, Mutation.on_bind, Mutation.on_get, Mutation.on_through, settled]
  exact Verdict.settle_map rfl

theorem on_writeOwn :
    (writeOwn key value strict).on string =
      Verdict.settle strict string (.ok (string.write key value)) := by
  simp only [writeOwn, write, Mutation.on_bind, Mutation.on_get]
  cases (string.fixed? key).isSome with
  | true => rfl
  | false => exact string.on_onBase (string.base.on_writeOwn key value)

theorem on_addOwn :
    (addOwn key value strict).on string =
      Verdict.settle strict string (.ok (string.add key value)) := by
  simp only [addOwn, add, Mutation.on_bind, Mutation.on_get]
  cases (string.fixed? key).isSome with
  | true => rfl
  | false => exact string.on_onBase (string.base.on_addOwn key value)

theorem on_defineOwn :
    (defineOwn key request strict).on string =
      Verdict.settle strict string (string.define key request) := by
  simp only [defineOwn, define, Mutation.on_bind, Mutation.on_get]
  cases string.fixed? key with
  | none =>
    rw [string.on_onBase (string.base.on_defineOwn key request)]
    rfl
  | some slot =>
    simp only [Mutation.on_bind, Mutation.on_ofExcept, reconcile_eq]
    rcases resolution key (some slot) request true with _ | _ | why
    · rfl
    · rfl
    · cases strict <;> rfl

theorem on_deleteOwn :
    (deleteOwn key strict).on string =
      Verdict.settle strict string (.ok (string.delete key)) := by
  simp only [deleteOwn, delete, Mutation.on_bind, Mutation.on_get]
  cases (string.fixed? key).isSome with
  | true => rfl
  | false => exact string.on_onBase (string.base.on_deleteOwn key)

end StringObject

end ObjectModel
