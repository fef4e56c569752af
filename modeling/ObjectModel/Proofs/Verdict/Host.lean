import ObjectModel.Host.Sequence
import ObjectModel.Proofs.Verdict.Ordinary

/-!
# Verdicts of host collections

The verdict on each mutation and the view after it.  The mutations report them: a value that cannot
be converted is a fault before anything is changed.
-/

namespace ObjectModel

/-- Why a request cannot be met by the entry of a host collection: entries are writable values that
are not configurable. -/
def entryRefusal? (key : Key) (request : Request) : Option Refusal :=
  if request.isAccessor then some (.accessorEntry key)
  else if request.writable == some false then some (.readOnlyEntry key)
  else if request.configurable == some true then some (.configurableEntry key)
  else none

theorem checkEntry_eq (key : Key) (request : Request) (strict : Bool) :
    checkEntry key request strict =
      match entryRefusal? key request with
      | some why => reject strict why
      | none => .ok true := by
  unfold checkEntry entryRefusal?
  cases request.isAccessor <;> cases request.writable == some false <;>
    cases request.configurable == some true <;> rfl

namespace HostMap

variable {keyType : KeyType} {elementType : ElementType}

def store (view : HostMap keyType elementType) (hostKey : keyType.Carrier) (value : Value) :
    Except Fault (Verdict × HostMap keyType elementType) := do
  let element ← elementType.ofValue value
  return (.accepted, { view with entries := view.entries.insert hostKey element })

def write (view : HostMap keyType elementType) (key : Key) (value : Value) :
    Except Fault (Verdict × HostMap keyType elementType) :=
  match keyType.ofKey? key with
  | some hostKey =>
    if view.growable || view.entries.contains hostKey then view.store hostKey value
    else .ok (.refused .fixedEntries, view)
  | none =>
    let (verdict, base) := view.base.write key value
    .ok (verdict, { view with base })

def add (view : HostMap keyType elementType) (key : Key) (value : Value) :
    Except Fault (Verdict × HostMap keyType elementType) :=
  match keyType.ofKey? key with
  | some hostKey =>
    if view.growable then view.store hostKey value else .ok (.refused .fixedEntries, view)
  | none =>
    let (verdict, base) := view.base.add key value
    .ok (verdict, { view with base })

/-- Define a property as requested; without a value a new entry holds `undefined`. -/
def define (view : HostMap keyType elementType) (key : Key) (request : Request) :
    Except Fault (Verdict × HostMap keyType elementType) :=
  match keyType.ofKey? key with
  | some hostKey =>
    match entryRefusal? key request with
    | some why => .ok (.refused why, view)
    | none =>
      let present := view.entries.contains hostKey
      if !present && !view.growable then .ok (.refused .fixedEntries, view)
      else
        match request.value with
        | some value => view.store hostKey value
        | none => if present then .ok (.accepted, view) else view.store hostKey .undefined
  | none => do
    let (verdict, base) ← view.base.define key request
    return (verdict, { view with base })

def delete (view : HostMap keyType elementType) (key : Key) :
    Verdict × HostMap keyType elementType :=
  match keyType.ofKey? key with
  | some hostKey => (.accepted, { view with entries := view.entries.erase hostKey })
  | none =>
    let (verdict, base) := view.base.delete key
    (verdict, { view with base })

variable {strict : Bool} (view : HostMap keyType elementType) (key : Key) (value : Value)
variable (request : Request)

theorem on_insert (hostKey : keyType.Carrier) :
    (insert hostKey value).on view = Verdict.settle strict view (view.store hostKey value) := by
  simp only [insert, store, Mutation.on_bind, Mutation.on_ofExcept]
  cases elementType.ofValue value <;> rfl

theorem on_onBase {mutation : Mutation OrdinaryObject Bool}
    {judged : Except Fault (Verdict × OrdinaryObject)}
    (settled : mutation.on view.base = Verdict.settle strict view.base judged) :
    (onBase mutation).on view = Verdict.settle strict view
      (judged.map fun ended => (ended.1, { view with base := ended.2 })) := by
  simp only [onBase, Mutation.on_bind, Mutation.on_get, Mutation.on_through, settled]
  exact Verdict.settle_map rfl

theorem on_writeOwn :
    (writeOwn key value strict).on view = Verdict.settle strict view (view.write key value) := by
  simp only [writeOwn, write]
  cases keyType.ofKey? key with
  | none => exact view.on_onBase (view.base.on_writeOwn key value)
  | some hostKey =>
    simp only [Mutation.on_bind, Mutation.on_get]
    cases view.growable <;> cases view.entries.contains hostKey <;>
      first
        | exact view.on_insert value hostKey
        | rfl

theorem on_addOwn :
    (addOwn key value strict).on view = Verdict.settle strict view (view.add key value) := by
  simp only [addOwn, add]
  cases keyType.ofKey? key with
  | none => exact view.on_onBase (view.base.on_addOwn key value)
  | some hostKey =>
    simp only [Mutation.on_bind, Mutation.on_get]
    cases view.growable with
    | true => exact view.on_insert value hostKey
    | false => rfl

theorem on_defineOwn :
    (defineOwn key request strict).on view =
      Verdict.settle strict view (view.define key request) := by
  simp only [defineOwn, define]
  cases keyType.ofKey? key with
  | none =>
    rw [view.on_onBase (view.base.on_defineOwn key request)]
    rfl
  | some hostKey =>
    simp only [Mutation.on_bind, Mutation.on_ofExcept, checkEntry_eq]
    cases entryRefusal? key request with
    | some why => cases strict <;> rfl
    | none =>
      simp only [reduceIte, Mutation.on_bind, Mutation.on_get]
      cases view.entries.contains hostKey <;> cases view.growable <;> cases request.value <;>
        first
          | exact view.on_insert _ hostKey
          | rfl

theorem on_deleteOwn :
    (deleteOwn key strict).on view = Verdict.settle strict view (.ok (view.delete key)) := by
  simp only [deleteOwn, delete]
  cases keyType.ofKey? key with
  | none => exact view.on_onBase (view.base.on_deleteOwn key)
  | some hostKey => rfl

end HostMap

namespace HostSequence

variable {elementType : ElementType}

def store (view : HostSequence elementType) (index : Nat) (value : Value) :
    Except Fault (Verdict × HostSequence elementType) := do
  let item ← elementType.ofValue value
  if index < view.items.length then
    return (.accepted, { view with items := view.items.set index item })
  else if view.resizable then
    return (.accepted, { view with items := fit view.items index ++ [item] })
  else return (.refused .fixedSequence, view)

def resize (view : HostSequence elementType) (value : Value) :
    Except Fault (Verdict × HostSequence elementType) := do
  let length ← toArrayLength value
  if length = view.items.length then return (.accepted, view)
  else if view.resizable then return (.accepted, { view with items := fit view.items length })
  else return (.refused .fixedLength, view)

def write (view : HostSequence elementType) (key : Key) (value : Value) :
    Except Fault (Verdict × HostSequence elementType) :=
  match key with
  | .index i => view.store i.toNat value
  | .named _ =>
    if key.isLength then view.resize value
    else
      let (verdict, base) := view.base.write key value
      .ok (verdict, { view with base })

def add (view : HostSequence elementType) (key : Key) (value : Value) :
    Except Fault (Verdict × HostSequence elementType) :=
  match key with
  | .index i => view.store i.toNat value
  | .named _ =>
    let (verdict, base) := view.base.add key value
    .ok (verdict, { view with base })

/-- Define a property as requested; a request without a value changes no item. -/
def define (view : HostSequence elementType) (key : Key) (request : Request) :
    Except Fault (Verdict × HostSequence elementType) :=
  match key with
  | .index i =>
    match entryRefusal? key request, request.value with
    | some why, _ => .ok (.refused why, view)
    | none, some value => view.store i.toNat value
    | none, none => .ok (.accepted, view)
  | .named _ =>
    if key.isLength then
      if request.isAccessor || request.configurable == some true ||
          request.enumerable == some true then
        .ok (.refused (.redefinition .length), view)
      else
        match request.value with
        | some value => view.resize value
        | none => .ok (.accepted, view)
    else do
      let (verdict, base) ← view.base.define key request
      return (verdict, { view with base })

def delete (view : HostSequence elementType) (key : Key) : Verdict × HostSequence elementType :=
  match key with
  | .index i => (.accepted, { view with items := view.items.set i.toNat elementType.default })
  | .named _ =>
    if key.isLength then (.refused (.deletion .length .array), view)
    else
      let (verdict, base) := view.base.delete key
      (verdict, { view with base })

variable {strict : Bool} (view : HostSequence elementType) (key : Key) (value : Value)
variable (request : Request)

/-- Setting the last of the items filled up beyond an index appends to those filled up to it. -/
theorem set_fit {items : List elementType.Carrier} {index : Nat} (item : elementType.Carrier)
    (beyond : items.length ≤ index) :
    (fit items (index + 1)).set index item = fit items index ++ [item] := by
  obtain ⟨missing, rfl⟩ := Nat.exists_eq_add_of_le beyond
  simp only [fit, List.take_of_length_le (Nat.le_add_right _ _), Nat.add_assoc,
    Nat.add_sub_cancel_left, List.replicate_succ', ← List.append_assoc]
  rw [List.set_append_right _ _ (by simp)]
  simp

theorem on_setItem (index : Nat) :
    (setItem index value strict).on view = Verdict.settle strict view (view.store index value) := by
  simp only [setItem, store, Mutation.on_bind, Mutation.on_ofExcept]
  cases elementType.ofValue value with
  | error fault => rfl
  | ok item =>
    change _ = Verdict.settle strict view
      (if index < view.items.length then
          .ok (.accepted, { view with items := view.items.set index item })
        else if view.resizable then
          .ok (.accepted, { view with items := fit view.items index ++ [item] })
        else .ok (.refused .fixedSequence, view))
    simp only [Mutation.on_get]
    by_cases within : index < view.items.length
    · rw [if_neg (Nat.not_le.mpr within), if_pos within]
      rfl
    rw [if_pos (Nat.not_lt.mp within), if_neg within]
    obtain ⟨items, resizable, base⟩ := view
    cases resizable with
    | false => rfl
    | true =>
      change (_, HostSequence.mk ((fit items (index + 1)).set index item) true base) = _
      rw [set_fit item (Nat.not_lt.mp within)]
      rfl

theorem on_assignLength :
    (assignLength value strict).on view = Verdict.settle strict view (view.resize value) := by
  simp only [assignLength, resize, Mutation.on_bind, Mutation.on_ofExcept]
  cases toArrayLength value with
  | error fault => rfl
  | ok length =>
    change _ = Verdict.settle strict view
      (if length = view.items.length then .ok (.accepted, view)
        else if view.resizable then .ok (.accepted, { view with items := fit view.items length })
        else .ok (.refused .fixedLength, view))
    simp only [Mutation.on_get]
    by_cases same : length = view.items.length
    · rw [if_pos same, if_pos same]
      rfl
    rw [if_neg same, if_neg same]
    obtain ⟨items, resizable, base⟩ := view
    cases resizable <;> rfl

theorem on_onBase {mutation : Mutation OrdinaryObject Bool}
    {judged : Except Fault (Verdict × OrdinaryObject)}
    (settled : mutation.on view.base = Verdict.settle strict view.base judged) :
    (onBase mutation).on view = Verdict.settle strict view
      (judged.map fun ended => (ended.1, { view with base := ended.2 })) := by
  simp only [onBase, Mutation.on_bind, Mutation.on_get, Mutation.on_through, settled]
  exact Verdict.settle_map rfl

theorem on_writeOwn :
    (writeOwn key value strict).on view = Verdict.settle strict view (view.write key value) := by
  cases key with
  | index i => exact view.on_setItem value i.toNat
  | named text =>
    simp only [writeOwn, write]
    split
    next => exact view.on_assignLength value
    next => exact view.on_onBase (view.base.on_writeOwn (.named text) value)

theorem on_addOwn :
    (addOwn key value strict).on view = Verdict.settle strict view (view.add key value) := by
  cases key with
  | index i => exact view.on_setItem value i.toNat
  | named text => exact view.on_onBase (view.base.on_addOwn (.named text) value)

theorem on_defineOwn :
    (defineOwn key request strict).on view =
      Verdict.settle strict view (view.define key request) := by
  cases key with
  | index i =>
    simp only [defineOwn, define, Mutation.on_bind, Mutation.on_ofExcept, checkEntry_eq]
    cases entryRefusal? (.index i) request with
    | some why => cases strict <;> rfl
    | none =>
      cases request.value with
      | none => rfl
      | some value => exact view.on_setItem value i.toNat
  | named text =>
    simp only [defineOwn, define]
    split
    next =>
      split
      next => rfl
      next =>
        cases request.value with
        | none => rfl
        | some value => exact view.on_assignLength value
    next =>
      rw [view.on_onBase (view.base.on_defineOwn (.named text) request)]
      rfl

theorem on_deleteOwn :
    (deleteOwn key strict).on view = Verdict.settle strict view (.ok (view.delete key)) := by
  cases key with
  | index i => rfl
  | named text =>
    simp only [deleteOwn, delete]
    split
    next => rfl
    next => exact view.on_onBase (view.base.on_deleteOwn (.named text))

end HostSequence

end ObjectModel
