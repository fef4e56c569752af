import ObjectModel.Fault

/-!
Mutations of one object.

A mutation ends with a result or a fault, and what it did to the object before a fault stays done.
-/

namespace ObjectModel

abbrev Mutation (σ α : Type) : Type := ExceptT Fault (StateM σ) α

namespace Mutation

variable {σ τ α β : Type}

/-- The outcome of a mutation of an object, and the object after it. -/
def on (mutation : Mutation σ α) (object : σ) : Except Fault α × σ := mutation.run.run object

def ofExcept (outcome : Except Fault α) : Mutation σ α := ExceptT.mk (pure outcome)

def reject (strict : Bool) (why : Refusal) : Mutation σ Bool :=
  ofExcept (ObjectModel.reject strict why)

/-- Mutate an object by mutating a part of it, which is then put back. -/
def through (back : τ → σ) (part : τ) (mutation : Mutation τ α) : Mutation σ α := do
  let (outcome, next) := mutation.on part
  set (back next)
  ofExcept outcome

@[simp]
theorem on_pure (result : α) (object : σ) :
    (pure result : Mutation σ α).on object = (.ok result, object) := rfl

@[simp]
theorem on_get (object : σ) : (get : Mutation σ σ).on object = (.ok object, object) := rfl

@[simp]
theorem on_set (next object : σ) :
    (set next : Mutation σ PUnit).on object = (.ok ⟨⟩, next) := rfl

@[simp]
theorem on_modify (change : σ → σ) (object : σ) :
    (modify change : Mutation σ PUnit).on object = (.ok ⟨⟩, change object) := rfl

@[simp]
theorem on_ofExcept (outcome : Except Fault α) (object : σ) :
    (ofExcept outcome : Mutation σ α).on object = (outcome, object) := rfl

@[simp]
theorem on_reject (strict : Bool) (why : Refusal) (object : σ) :
    (reject strict why : Mutation σ Bool).on object = (ObjectModel.reject strict why, object) :=
  rfl

theorem on_bind (mutation : Mutation σ α) (next : α → Mutation σ β) (object : σ) :
    (mutation >>= next).on object =
      match mutation.on object with
      | (.ok result, after) => (next result).on after
      | (.error fault, after) => (.error fault, after) := by
  change (match mutation.on object with
    | (outcome, after) => (ExceptT.bindCont next outcome : StateM σ (Except Fault β)) after) = _
  rcases mutation.on object with ⟨_ | result, after⟩ <;> rfl

@[simp]
theorem on_through (back : τ → σ) (part : τ) (mutation : Mutation τ α) (object : σ) :
    (mutation.through back part).on object = (mutation.on part).map id back := rfl

end Mutation

end ObjectModel
