import ObjectModel.Proofs.Host.Calls
import ObjectModel.Proofs.Host.Closure
import ObjectModel.Proofs.Host.Definition
import ObjectModel.Proofs.Host.Element

/-!
# Views on sequences as lists

A view on a host sequence behaves as a list whose length may change or not.  A value is converted
before anything else happens.  Then it is put at its index, with default elements before it if the
list must be extended and may be; a new length cuts the list off or fills it up; and what is deleted
is the default element again.  A list whose length may not change keeps it for good, whatever is
done at the view.
-/

namespace ObjectModel

theorem toArrayLength_of_whole {value : Value} {length : Nat}
    (whole : value.toNumber.toInt? = some (length : Int)) (possible : length ≤ maxArrayLength) :
    toArrayLength value = .ok length := by
  have bounds : (0 : Int) ≤ length ∧ (length : Int) ≤ maxArrayLength :=
    ⟨Int.natCast_nonneg length, Int.ofNat_le.mpr possible⟩
  simp only [toArrayLength, whole]
  rw [if_pos bounds, Int.toNat_natCast]

theorem toArrayLength_ofNat {length : Nat} (possible : length ≤ maxArrayLength) :
    toArrayLength (.number (.ofNat length)) = .ok length := by
  have exact : maxArrayLength ≤ exactBound := by decide
  have small : (length : Int).natAbs ≤ exactBound := by
    rw [Int.natAbs_natCast]
    exact Nat.le_trans possible exact
  have whole : (Number.ofNat length).toInt? = some (length : Int) := by
    rw [← Number.ofInt_natCast, Number.toInt?_ofInt_of_le small]
  exact toArrayLength_of_whole whole possible

/-- A list that a host shares. -/
structure SharedList (elementType : ElementType) where
  items : List elementType.Carrier
  /-- Whether the length may change. -/
  resizable : Bool

namespace SharedList

variable {elementType : ElementType}

/-- The first items of a list, with default elements for those that it lacks. -/
def sized (items : List elementType.Carrier) (length : Nat) : List elementType.Carrier :=
  (List.range length).map fun index => items[index]?.getD elementType.default

def assign (list : SharedList elementType) (index : Nat) (value : Value) :
    Except Fault (Verdict × SharedList elementType) :=
  (elementType.ofValue value).map fun item =>
    if index < list.items.length ∨ list.resizable then
      let items := sized list.items (max list.items.length (index + 1))
      (.accepted, { list with items := items.set index item })
    else (.refused .fixedSequence, list)

def setLength (list : SharedList elementType) (value : Value) :
    Except Fault (Verdict × SharedList elementType) :=
  (toArrayLength value).map fun length =>
    if length = list.items.length ∨ list.resizable then
      (.accepted, { list with items := sized list.items length })
    else (.refused .fixedLength, list)

def getOwn? (list : SharedList elementType) (key : Key) : Option (Option Slot) :=
  match key with
  | .index i => some (list.items[i.toNat]?.map fun item => .bare (elementType.toValue item))
  | .named _ =>
    if key.isLength then
      some (some (.described
        (.data (.number (.ofNat list.items.length)) ⟨list.resizable, false, false⟩)))
    else none

def defineItem (list : SharedList elementType) (i : UInt32) (request : Request) :
    Except Fault (Verdict × SharedList elementType) :=
  match entryRefusal? (.index i) request with
  | some why => .ok (.refused why, list)
  | none => request.value.elim (.ok (.accepted, list)) (list.assign i.toNat)

def defineLength (list : SharedList elementType) (request : Request) :
    Except Fault (Verdict × SharedList elementType) :=
  if request.isAccessor ∨ request.configurable = some true ∨ request.enumerable = some true then
    .ok (.refused (.redefinition .length), list)
  else request.value.elim (.ok (.accepted, list)) list.setLength

/-- Carry out a mutation of an item or the length; the length cannot be added. -/
def mutate? (list : SharedList elementType) :
    OwnMutation → Option (Except Fault (Verdict × SharedList elementType))
  | .write (.index i) value | .add (.index i) value => some (list.assign i.toNat value)
  | .define (.index i) request => some (list.defineItem i request)
  | .delete (.index i) =>
    some (.ok (.accepted, { list with items := list.items.set i.toNat elementType.default }))
  | .write (.named text) value =>
    if (Key.named text).isLength then some (list.setLength value) else none
  | .add (.named _) _ => none
  | .define (.named text) request =>
    if (Key.named text).isLength then some (list.defineLength request) else none
  | .delete (.named text) =>
    if (Key.named text).isLength then some (.ok (.refused (.deletion .length .array), list))
    else none

def reference (elementType : ElementType) :
    ViewReference (List elementType.Carrier) (SharedList elementType) where
  getOwn? := getOwn?
  mutate? := mutate?
  preventExtensions list := { list with resizable := false }
  edited list items := { list with items }

theorem length_sized (items : List elementType.Carrier) (length : Nat) :
    (sized items length).length = length := by
  rw [sized, List.length_map, List.length_range]

theorem getElem?_sized (items : List elementType.Carrier) (length index : Nat) :
    (sized items length)[index]? =
      if index < length then some (items[index]?.getD elementType.default) else none := by
  rw [sized, List.getElem?_map]
  split
  next inside => rw [List.getElem?_range inside, Option.map_some]
  next beyond =>
    rw [List.getElem?_eq_none (by simpa using beyond), Option.map_none]

theorem sized_length (items : List elementType.Carrier) : sized items items.length = items := by
  refine List.ext_getElem? fun index => ?_
  rw [getElem?_sized]
  split
  next inside => rw [List.getElem?_eq_getElem inside, Option.getD_some]
  next beyond => rw [List.getElem?_eq_none (Nat.le_of_not_lt beyond)]

theorem sized_succ (items : List elementType.Carrier) (length : Nat) :
    sized items (length + 1) =
      sized items length ++ [items[length]?.getD elementType.default] := by
  rw [sized, List.range_succ, List.map_append]
  rfl

end SharedList

namespace HostSequence

variable {elementType : ElementType}

def mutateOwn (mutation : OwnMutation) (strict : Bool) : Mutation (HostSequence elementType) Bool :=
  match mutation with
  | .write key value => writeOwn key value strict
  | .add key value => addOwn key value strict
  | .define key request => defineOwn key request strict
  | .delete key => deleteOwn key strict

theorem on_mutateOwn (view : HostSequence elementType) (mutation : OwnMutation) (strict : Bool) :
    (mutateOwn mutation strict).on view = Verdict.settle strict view (view.mutate mutation) := by
  cases mutation with
  | write key value => exact view.on_writeOwn key value
  | add key value => exact view.on_addOwn key value
  | define key request => exact view.on_defineOwn key request
  | delete key => exact view.on_deleteOwn key

def operations (elementType : ElementType) :
    ViewOperations (List elementType.Carrier) (HostSequence elementType) where
  getOwn := getOwn
  mutateOwn := mutateOwn
  setPrototype view prototype := { view with base := view.base.setPrototype prototype }
  preventExtensions view :=
    { view with resizable := false, base := view.base.preventExtensions }
  edited view items := { view with items }

theorem actAs : (operations elementType).ActAs .sequence where
  getOwn _ _ := rfl
  mutateOwn _ mutation _ := by cases mutation <;> rfl
  setPrototype _ _ := rfl
  preventExtensions _ := rfl

def list (view : HostSequence elementType) : SharedList elementType :=
  ⟨view.items, view.resizable⟩

theorem fit_eq_sized (items : List elementType.Carrier) (length : Nat) :
    fit items length = SharedList.sized items length := by
  refine List.ext_getElem? fun index => ?_
  rw [SharedList.getElem?_sized]
  split
  next inside =>
    rcases Nat.lt_or_ge index items.length with kept | filled
    · have taken : index < (items.take length).length := by
        rw [List.length_take]
        omega
      rw [fit, List.getElem?_append_left taken, List.getElem?_take_of_lt inside,
        List.getElem?_eq_getElem kept, Option.getD_some]
    · have beyond : (items.take length).length ≤ index :=
        Nat.le_trans (List.length_take_le' length items) filled
      have padded : index - (items.take length).length < length - items.length := by
        rw [List.length_take]
        omega
      rw [fit, List.getElem?_append_right beyond, List.getElem?_replicate, if_pos padded,
        List.getElem?_eq_none filled, Option.getD_none]
  next beyond =>
    refine List.getElem?_eq_none ?_
    rw [length_fit]
    exact Nat.le_of_not_lt beyond

theorem fit_append (items : List elementType.Carrier) (index : Nat) (item : elementType.Carrier) :
    fit items index ++ [item] = (SharedList.sized items (index + 1)).set index item := by
  have last : (SharedList.sized items index).length ≤ index :=
    Nat.le_of_eq (SharedList.length_sized items index)
  rw [SharedList.sized_succ, List.set_append_right index item last, SharedList.length_sized,
    Nat.sub_self, fit_eq_sized]
  rfl

variable (view : HostSequence elementType)

theorem list_store (index : Nat) (value : Value) :
    (view.store index value).map (·.map id list) = view.list.assign index value := by
  unfold store SharedList.assign
  cases elementType.ofValue value with
  | error fault => rfl
  | ok item =>
    simp only [bind, Except.bind, Except.map]
    by_cases inside : index < view.items.length
    · have whole : max view.list.items.length (index + 1) = view.list.items.length :=
        Nat.max_eq_left inside
      rw [if_pos inside, if_pos (.inl inside), whole, SharedList.sized_length]
      rfl
    · have longer : max view.list.items.length (index + 1) = index + 1 :=
        Nat.max_eq_right (Nat.le_succ_of_le (Nat.le_of_not_lt inside))
      rw [if_neg inside, longer]
      by_cases room : view.resizable = true
      · rw [if_pos room, if_pos (.inr room), fit_append]
        rfl
      · have fixed : ¬(index < view.list.items.length ∨ view.list.resizable = true) :=
          not_or.mpr ⟨inside, room⟩
        rw [if_neg room, if_neg fixed]
        rfl

theorem list_resize (value : Value) :
    (view.resize value).map (·.map id list) = view.list.setLength value := by
  unfold resize SharedList.setLength
  cases toArrayLength value with
  | error fault => rfl
  | ok length =>
    simp only [bind, Except.bind, Except.map]
    by_cases same : length = view.items.length
    · subst same
      rw [if_pos rfl, if_pos (.inl rfl), list, SharedList.sized_length]
      rfl
    · rw [if_neg same]
      by_cases room : view.resizable = true
      · rw [if_pos room, if_pos (.inr room), fit_eq_sized]
        rfl
      · have fixed : ¬(length = view.list.items.length ∨ view.list.resizable = true) :=
          not_or.mpr ⟨same, room⟩
        rw [if_neg room, if_neg fixed]
        rfl

theorem list_define_item (i : UInt32) (request : Request) :
    (view.define (.index i) request).map (·.map id list) = view.list.defineItem i request := by
  unfold define SharedList.defineItem
  cases entryRefusal? (.index i) request with
  | some why => rfl
  | none =>
    cases request.value with
    | none => rfl
    | some value => exact view.list_store i.toNat value

theorem list_define_length {text : Text} (isLength : (Key.named text).isLength = true)
    (request : Request) :
    (view.define (.named text) request).map (·.map id list) = view.list.defineLength request := by
  have same : (request.isAccessor || request.configurable == some true ||
      request.enumerable == some true) = true ↔
        (request.isAccessor ∨ request.configurable = some true ∨
          request.enumerable = some true) := by
    rw [Bool.or_eq_true, Bool.or_eq_true, beq_iff_eq, beq_iff_eq, or_assoc]
  unfold define SharedList.defineLength
  simp only [isLength, if_true, same]
  split
  next => rfl
  next =>
    cases request.value with
    | none => rfl
    | some value => exact view.list_resize value

/-- A mutation of an item or the length has the outcome that it has for the list. -/
theorem list_mutate {mutation : OwnMutation}
    {outcome : Except Fault (Verdict × SharedList elementType)}
    (expected : view.list.mutate? mutation = some outcome) :
    (view.mutate mutation).map (·.map id list) = outcome := by
  cases mutation with
  | write key value =>
    cases key with
    | index i =>
      cases expected
      exact view.list_store i.toNat value
    | named text =>
      obtain ⟨isLength, ⟨⟩⟩ := Option.ite_none_right_eq_some.mp expected
      simp only [mutate, write, isLength, if_true]
      exact view.list_resize value
  | add key value =>
    cases key with
    | index i =>
      cases expected
      exact view.list_store i.toNat value
    | named text => cases expected
  | define key request =>
    cases key with
    | index i =>
      cases expected
      exact view.list_define_item i request
    | named text =>
      obtain ⟨isLength, ⟨⟩⟩ := Option.ite_none_right_eq_some.mp expected
      exact view.list_define_length isLength request
  | delete key =>
    cases key with
    | index i =>
      cases expected
      rfl
    | named text =>
      obtain ⟨isLength, ⟨⟩⟩ := Option.ite_none_right_eq_some.mp expected
      simp only [mutate, delete, isLength, if_true]
      rfl

theorem list_mutate_further {mutation : OwnMutation} {verdict : Verdict}
    {next : HostSequence elementType} (unknown : view.list.mutate? mutation = none)
    (done : view.mutate mutation = .ok (verdict, next)) : next.list = view.list := by
  cases unreserved : mutation.key.isSpecial with
  | false =>
    rw [mutate_unreserved unreserved] at done
    obtain ⟨ended, _, same⟩ := exists_of_map_eq_ok done
    cases same
    rfl
  | true =>
    cases mutation with
    | add key value =>
      -- The length is not added to the list, but to the further properties.
      cases key with
      | index i => cases unknown
      | named text =>
        cases done
        rfl
    | _ key =>
      cases key with
      | index i => cases unknown
      | named text =>
        have isLength : (Key.named text).isLength = true := unreserved
        rw [SharedList.mutate?, if_pos isLength] at unknown
        cases unknown

theorem describes : (SharedList.reference elementType).Describes list (operations elementType) where
  getOwn view key found read := by
    cases key with
    | index i => exact Option.some.inj read
    | named text =>
      obtain ⟨isLength, ⟨⟩⟩ := Option.ite_none_right_eq_some.mp read
      exact if_pos isLength
  concerned view mutation strict judged expected := by
    have settled := view.on_mutateOwn mutation strict
    rw [← view.list_mutate expected]
    exact (congrArg (Prod.map id list) settled).trans (Verdict.settle_map rfl)
  unconcerned view mutation strict unknown := by
    have settled := view.on_mutateOwn mutation strict
    rcases Verdict.settle_snd strict view (view.mutate mutation) with same | ⟨verdict, done⟩
    · exact congrArg list ((congrArg Prod.snd settled).trans same)
    · exact (congrArg (list ∘ Prod.snd) settled).trans (view.list_mutate_further unknown done)
  setPrototype _ _ := rfl
  preventExtensions _ := rfl
  edited _ _ := rfl

theorem secures : (operations elementType).Secures (fun view => view.resizable = false)
    fun view next => next.items.length = view.items.length where
  refl _ := rfl
  trans early late := late.trans early
  mutateOwn {view} mutation strict fixed := by
    have settled : (mutateOwn mutation strict).on view = _ := view.on_mutateOwn mutation strict
    rw [operations, settled]
    rcases Verdict.settle_snd strict view (view.mutate mutation) with same | ⟨verdict, done⟩
    · rw [same]
      exact ⟨fixed, rfl⟩
    · obtain ⟨stays, confines⟩ := (edits_mutate done).confines fixed
      cases confines with
      | sequence length => exact ⟨stays, length⟩
  setPrototype _ fixed := ⟨fixed, rfl⟩
  preventExtensions _ := ⟨rfl, rfl⟩
  edited _ fixed := fixed

/-- A view on a sequence, with the operations of the object that it is, is a list: every series of
calls at the view and edits by the host leaves the items that it leaves in the list, and is answered
as it is for the list.  What cannot be converted is a mismatch.  Once the length is fixed, only the
host changes it; and the length of a sequence that is not too long is read as a number that is a
possible length. -/
theorem runs_as_list (view : HostSequence elementType)
    (calls : List (ViewCall (List elementType.Carrier))) :
    (operations elementType).ActAs .sequence ∧
      Foretells list ((SharedList.reference elementType).run view.list calls)
        ((operations elementType).run view calls) ∧
      (∀ value fault, elementType.ofValue value = .error fault →
        ∃ target, fault = .typeMismatch (.conversion value.typeName target)) ∧
      (∀ later : List (ViewCall (List elementType.Carrier)),
        view.resizable = false ∨ .preventExtensions ∈ calls →
        (∀ call ∈ later, call.isEdit = false) →
          ((operations elementType).run view (calls ++ later)).2.items.length =
            ((operations elementType).run view calls).2.items.length) ∧
      (view.items.length ≤ maxArrayLength →
        toArrayLength (.number (.ofNat view.items.length)) = .ok view.items.length) := by
  refine ⟨actAs, describes.foretells view calls, ?_, ?_, ?_⟩
  · exact fun _ _ failed => ElementType.exists_mismatch_of_ofValue failed
  · exact fun _ fixed unedited => secures.run_stays fixed unedited
  · exact toArrayLength_ofNat

/-- A view on a list of one truth value, which may change its length. -/
def truths : HostSequence (.plain .boolean) := ⟨[true], true, .new none⟩

/-- Calls that extend a list and then fix its length, which the host changes once more. -/
def fixing : List (ViewCall (List (ElementType.plain .boolean).Carrier)) :=
  [.own (.write (.index 3) (.boolean true)) true, .preventExtensions,
    .edited ([true, false] : List Bool)]

/-- Calls that would change the length of a list if it were not fixed. -/
def resizing : List (ViewCall (List (ElementType.plain .boolean).Carrier)) :=
  [.own (.add (.index 2) (.boolean true)) false, .own (.delete (.index 1)) true,
    .own (.define .length { value := some (.number (.ofNat 0)) }) true]

theorem runs_as_list_truths :
    ViewCall.preventExtensions ∈ fixing ∧ (∀ call ∈ resizing, call.isEdit = false) ∧
      ((operations (.plain .boolean)).run truths (fixing ++ resizing)).2.items.length = 2 ∧
      truths.items.length ≤ maxArrayLength ∧ toArrayLength (.number (.ofNat 1)) = .ok 1 ∧
      ∃ target, Scalar.mismatch .null "boolean" =
        .typeMismatch (.conversion (Value.typeName .null) target) := by
  have fixed : ViewCall.preventExtensions ∈ fixing := .tail _ (.head _)
  have unedited : ∀ call ∈ resizing, call.isEdit = false := by
    rintro call (_ | ⟨_, _ | ⟨_, _ | ⟨_, ⟨⟩⟩⟩⟩) <;> rfl
  have two : ((operations (.plain .boolean)).run truths fixing).2.items.length = 2 := rfl
  have short : truths.items.length ≤ maxArrayLength := by decide
  obtain ⟨_, _, mismatch, keeps, readable⟩ := runs_as_list truths fixing
  exact ⟨fixed, unedited, (keeps resizing (.inr fixed) unedited).trans two, short,
    readable short, mismatch .null _ rfl⟩

end HostSequence

end ObjectModel
