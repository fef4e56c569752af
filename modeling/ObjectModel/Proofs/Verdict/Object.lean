import ObjectModel.Object.Basic
import ObjectModel.Proofs.Verdict.Array
import ObjectModel.Proofs.Verdict.Host

/-!
# Verdicts of objects

The verdict of an object is that of its representation, and whatever represents it, its mutations
report the verdict.  A mutation of a property therefore ends in one of two ways: it has a verdict,
and then the object is what the verdict goes with, or it is a fault, and then the object is what it
was.
-/

namespace ObjectModel.Object

def write : Object → Key → Value → Except Fault (Verdict × Object)
  | .ordinary inner, key, value => .ok ((inner.write key value).map id .ordinary)
  | .array inner, key, value => (inner.write key value).map (·.map id .array)
  | .string inner, key, value => .ok ((inner.write key value).map id .string)
  | .map inner, key, value => (inner.write key value).map (·.map id .map)
  | .sequence inner, key, value => (inner.write key value).map (·.map id .sequence)
  | .function inner, key, value => .ok ((inner.write key value).map id .function)

def add : Object → Key → Value → Except Fault (Verdict × Object)
  | .ordinary inner, key, value => .ok ((inner.add key value).map id .ordinary)
  | .array inner, key, value => (inner.add key value).map (·.map id .array)
  | .string inner, key, value => .ok ((inner.add key value).map id .string)
  | .map inner, key, value => (inner.add key value).map (·.map id .map)
  | .sequence inner, key, value => (inner.add key value).map (·.map id .sequence)
  | .function inner, key, value => .ok ((inner.add key value).map id .function)

def define : Object → Key → Request → Except Fault (Verdict × Object)
  | .ordinary inner, key, request => (inner.define key request).map (·.map id .ordinary)
  | .array inner, key, request => (inner.define key request).map (·.map id .array)
  | .string inner, key, request => (inner.define key request).map (·.map id .string)
  | .map inner, key, request => (inner.define key request).map (·.map id .map)
  | .sequence inner, key, request => (inner.define key request).map (·.map id .sequence)
  | .function inner, key, request => (inner.define key request).map (·.map id .function)

def delete : Object → Key → Verdict × Object
  | .ordinary inner, key => (inner.delete key).map id .ordinary
  | .array inner, key => (inner.delete key).map id .array
  | .string inner, key => (inner.delete key).map id .string
  | .map inner, key => (inner.delete key).map id .map
  | .sequence inner, key => (inner.delete key).map id .sequence
  | .function inner, key => (inner.delete key).map id .function

def mutate (object : Object) : OwnMutation → Except Fault (Verdict × Object)
  | .write key value => object.write key value
  | .add key value => object.add key value
  | .define key request => object.define key request
  | .delete key => .ok (object.delete key)

section

variable {σ : Type} {strict : Bool}

/-- What is settled for a representation is settled for the object. -/
theorem on_through {mutation : Mutation σ Bool} {wrap : σ → Object} {inner : σ}
    {judged : Except Fault (Verdict × σ)}
    (settled : mutation.on inner = Verdict.settle strict inner judged) :
    (mutation.through wrap inner).on (wrap inner) =
      Verdict.settle strict (wrap inner) (judged.map (·.map id wrap)) := by
  rw [Mutation.on_through, settled]
  exact Verdict.settle_map rfl

variable (object : Object) (key : Key) (value : Value) (request : Request)

theorem on_writeOwn :
    (writeOwn key value strict).on object =
      Verdict.settle strict object (object.write key value) := by
  cases object with
  | ordinary inner => exact on_through (inner.on_writeOwn key value)
  | array inner => exact on_through (inner.on_writeOwn key value)
  | string inner => exact on_through (inner.on_writeOwn key value)
  | map inner => exact on_through (inner.on_writeOwn key value)
  | sequence inner => exact on_through (inner.on_writeOwn key value)
  | function inner => exact on_through (inner.on_writeOwn key value)

theorem on_addOwn :
    (addOwn key value strict).on object =
      Verdict.settle strict object (object.add key value) := by
  cases object with
  | ordinary inner => exact on_through (inner.on_addOwn key value)
  | array inner => exact on_through (inner.on_addOwn key value)
  | string inner => exact on_through (inner.on_addOwn key value)
  | map inner => exact on_through (inner.on_addOwn key value)
  | sequence inner => exact on_through (inner.on_addOwn key value)
  | function inner => exact on_through (inner.on_addOwn key value)

theorem on_defineOwn :
    (defineOwn key request strict).on object =
      Verdict.settle strict object (object.define key request) := by
  cases object with
  | ordinary inner => exact on_through (inner.on_defineOwn key request)
  | array inner => exact on_through (inner.on_defineOwn key request)
  | string inner => exact on_through (inner.on_defineOwn key request)
  | map inner => exact on_through (inner.on_defineOwn key request)
  | sequence inner => exact on_through (inner.on_defineOwn key request)
  | function inner => exact on_through (inner.on_defineOwn key request)

theorem on_deleteOwn :
    (deleteOwn key strict).on object =
      Verdict.settle strict object (.ok (object.delete key)) := by
  cases object with
  | ordinary inner => exact on_through (inner.on_deleteOwn key)
  | array inner => exact on_through (inner.on_deleteOwn key)
  | string inner => exact on_through (inner.on_deleteOwn key)
  | map inner => exact on_through (inner.on_deleteOwn key)
  | sequence inner => exact on_through (inner.on_deleteOwn key)
  | function inner => exact on_through (inner.on_deleteOwn key)

theorem on_mutateOwn (mutation : OwnMutation) :
    (mutateOwn mutation strict).on object =
      Verdict.settle strict object (object.mutate mutation) := by
  cases mutation with
  | write key value => exact object.on_writeOwn key value
  | add key value => exact object.on_addOwn key value
  | define key request => exact object.on_defineOwn key request
  | delete key => exact object.on_deleteOwn key

end

end ObjectModel.Object
