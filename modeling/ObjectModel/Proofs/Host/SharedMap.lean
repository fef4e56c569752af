import Mathlib.Logic.Function.Basic
import ObjectModel.Proofs.Host.Calls
import ObjectModel.Proofs.Host.Closure
import ObjectModel.Proofs.Host.Separation

/-!
# Views on maps as maps that remember their order

A view on a host map behaves as a list of keys in the order in which they came in, with an element
at each.  A key that denotes a host key means that entry and no other, and one that denotes none
does not concern the map.  A value is converted before it is stored; it takes the place of an old
element, or its key comes last.  A map that may get no new keys can only lose some, whatever is done
at the view.
-/

namespace ObjectModel

/-- A map that a host shares. -/
structure SharedMap (keyType : KeyType) (elementType : ElementType) where
  /-- The keys, in the order in which they came in. -/
  keys : List keyType.Carrier
  element? : keyType.Carrier → Option elementType.Carrier
  /-- Whether there may be new keys. -/
  extensible : Bool

namespace SharedMap

variable {keyType : KeyType} {elementType : ElementType}

def store (map : SharedMap keyType elementType) (hostKey : keyType.Carrier) (value : Value) :
    Except Fault (Verdict × SharedMap keyType elementType) :=
  (elementType.ofValue value).map fun element =>
    (.accepted,
      { map with
        keys := if hostKey ∈ map.keys then map.keys else map.keys ++ [hostKey]
        element? := Function.update map.element? hostKey (some element) })

def write (map : SharedMap keyType elementType) (hostKey : keyType.Carrier) (value : Value) :
    Except Fault (Verdict × SharedMap keyType elementType) :=
  if hostKey ∈ map.keys ∨ map.extensible then map.store hostKey value
  else .ok (.refused .fixedEntries, map)

def remove (map : SharedMap keyType elementType) (hostKey : keyType.Carrier) :
    SharedMap keyType elementType :=
  { map with
    keys := map.keys.filter fun other => other ≠ hostKey
    element? := Function.update map.element? hostKey none }

/-- Carry out a mutation of an entry.  To define one without a value changes nothing if it is there,
and is to write `undefined` otherwise. -/
def mutateEntry (map : SharedMap keyType elementType) (hostKey : keyType.Carrier) :
    OwnMutation → Except Fault (Verdict × SharedMap keyType elementType)
  | .write _ value => map.write hostKey value
  | .add _ value =>
    if map.extensible then map.store hostKey value else .ok (.refused .fixedEntries, map)
  | .define key request =>
    match entryRefusal? key request with
    | some why => .ok (.refused why, map)
    | none =>
      if hostKey ∈ map.keys ∧ request.value = none then .ok (.accepted, map)
      else map.write hostKey (request.value.getD .undefined)
  | .delete _ => .ok (.accepted, map.remove hostKey)

def reference (keyType : KeyType) (elementType : ElementType) :
    ViewReference (OrderedMap keyType.Carrier elementType.Carrier)
      (SharedMap keyType elementType) where
  getOwn? map key := (keyType.ofKey? key).map fun hostKey =>
    (map.element? hostKey).map fun element => .bare (elementType.toValue element)
  mutate? map mutation := (keyType.ofKey? mutation.key).map fun hostKey =>
    map.mutateEntry hostKey mutation
  preventExtensions map := { map with extensible := false }
  edited map entries := { map with keys := entries.keys, element? := entries.get? }

end SharedMap

namespace HostMap

variable {keyType : KeyType} {elementType : ElementType}

def mutateOwn (mutation : OwnMutation) (strict : Bool) :
    Mutation (HostMap keyType elementType) Bool :=
  match mutation with
  | .write key value => writeOwn key value strict
  | .add key value => addOwn key value strict
  | .define key request => defineOwn key request strict
  | .delete key => deleteOwn key strict

theorem on_mutateOwn (view : HostMap keyType elementType) (mutation : OwnMutation) (strict : Bool) :
    (mutateOwn mutation strict).on view = Verdict.settle strict view (view.mutate mutation) := by
  cases mutation with
  | write key value => exact view.on_writeOwn key value
  | add key value => exact view.on_addOwn key value
  | define key request => exact view.on_defineOwn key request
  | delete key => exact view.on_deleteOwn key

def operations (keyType : KeyType) (elementType : ElementType) :
    ViewOperations (OrderedMap keyType.Carrier elementType.Carrier)
      (HostMap keyType elementType) where
  getOwn := getOwn
  mutateOwn := mutateOwn
  setPrototype view prototype := { view with base := view.base.setPrototype prototype }
  preventExtensions view :=
    { view with growable := false, base := view.base.preventExtensions }
  edited view entries := { view with entries }

theorem actAs : (operations keyType elementType).ActAs .map where
  getOwn _ _ := rfl
  mutateOwn _ mutation _ := by cases mutation <;> rfl
  setPrototype _ _ := rfl
  preventExtensions _ := rfl

def shared (view : HostMap keyType elementType) : SharedMap keyType elementType :=
  ⟨view.entries.keys, view.entries.get?, view.growable⟩

variable {view next : HostMap keyType elementType} {hostKey : keyType.Carrier}
  {mutation : OwnMutation} {verdict : Verdict}

theorem contains_iff : view.entries.contains hostKey = true ↔ hostKey ∈ view.shared.keys := by
  rw [shared, OrderedMap.mem_keys_iff, ← Option.isSome_iff_exists]
  rfl

theorem shared_store (value : Value) :
    (view.store hostKey value).map (·.map id shared) = view.shared.store hostKey value := by
  unfold store SharedMap.store
  cases elementType.ofValue value with
  | error fault => rfl
  | ok element =>
    have found : (view.entries.insert hostKey element).get? =
        Function.update view.entries.get? hostKey (some element) := by
      funext wanted
      rw [OrderedMap.get?_insert, Function.update_apply]
    simp only [bind, Except.bind, pure, Except.pure, Except.map, Prod.map, shared, found,
      OrderedMap.keys_insert]
    rfl

theorem shared_erase :
    ({ view with entries := view.entries.erase hostKey } : HostMap keyType elementType).shared =
      view.shared.remove hostKey := by
  have found : (view.entries.erase hostKey).get? =
      Function.update view.entries.get? hostKey none := by
    funext wanted
    rw [OrderedMap.get?_erase, Function.update_apply]
  simp only [shared, SharedMap.remove, found, OrderedMap.keys_erase]

theorem shared_write (view : HostMap keyType elementType) (hostKey : keyType.Carrier)
    (value : Value) :
    (if view.growable || view.entries.contains hostKey then view.store hostKey value
      else .ok (.refused .fixedEntries, view)).map (·.map id shared) =
        view.shared.write hostKey value := by
  have room : (view.growable || view.entries.contains hostKey) = true ↔
      (hostKey ∈ view.shared.keys ∨ view.shared.extensible = true) := by
    rw [Bool.or_eq_true, contains_iff, or_comm]
    rfl
  simp only [SharedMap.write, room]
  split
  next => exact shared_store value
  next => rfl

theorem define_of_allowed {key : Key} (denotes : keyType.ofKey? key = some hostKey)
    {request : Request} (allowed : entryRefusal? key request = none) :
    view.define key request =
      if view.entries.contains hostKey && request.value.isNone then .ok (.accepted, view)
      else if view.growable || view.entries.contains hostKey then
        view.store hostKey (request.value.getD .undefined)
      else .ok (.refused .fixedEntries, view) := by
  simp only [define, denotes, allowed]
  cases view.entries.contains hostKey <;> cases view.growable <;> cases request.value <;> rfl

theorem shared_define {key : Key} (denotes : keyType.ofKey? key = some hostKey)
    (request : Request) :
    (view.define key request).map (·.map id shared) =
      view.shared.mutateEntry hostKey (.define key request) := by
  cases allowed : entryRefusal? key request with
  | some why =>
    simp only [define, denotes, SharedMap.mutateEntry, allowed]
    rfl
  | none =>
    have kept : (view.entries.contains hostKey && request.value.isNone) = true ↔
        hostKey ∈ view.shared.keys ∧ request.value = none := by
      rw [Bool.and_eq_true, contains_iff, Option.isNone_iff_eq_none]
    simp only [define_of_allowed denotes allowed, SharedMap.mutateEntry, allowed, kept]
    split
    next => rfl
    next => exact view.shared_write hostKey (request.value.getD .undefined)

/-- A mutation of an entry has the outcome that it has for the map. -/
theorem shared_mutate (denotes : keyType.ofKey? mutation.key = some hostKey) :
    (view.mutate mutation).map (·.map id shared) = view.shared.mutateEntry hostKey mutation := by
  cases mutation with
  | write key value =>
    have denotes : keyType.ofKey? key = some hostKey := denotes
    simp only [mutate, write, denotes]
    exact view.shared_write hostKey value
  | add key value =>
    have denotes : keyType.ofKey? key = some hostKey := denotes
    have room : view.shared.extensible = view.growable := rfl
    simp only [mutate, add, denotes, SharedMap.mutateEntry, room]
    split
    next => exact shared_store value
    next => rfl
  | define key request => exact shared_define denotes request
  | delete key =>
    have denotes : keyType.ofKey? key = some hostKey := denotes
    simp only [mutate, delete, denotes, SharedMap.mutateEntry, ← shared_erase]
    rfl

theorem exists_base_of_mutate (denotes : keyType.ofKey? mutation.key = none)
    (done : view.mutate mutation = .ok (verdict, next)) : ∃ base, next = { view with base } := by
  rw [mutate_further denotes] at done
  obtain ⟨ended, _, same⟩ := exists_of_map_eq_ok done
  cases same
  exact ⟨ended.2, rfl⟩

theorem exists_base_of_mutateOwn (view : HostMap keyType elementType) (strict : Bool)
    (denotes : keyType.ofKey? mutation.key = none) :
    ∃ base, ((mutateOwn mutation strict).on view).2 = { view with base } := by
  rw [view.on_mutateOwn]
  rcases Verdict.settle_snd strict view (view.mutate mutation) with same | ⟨verdict, done⟩
  · exact ⟨view.base, same⟩
  · exact exists_base_of_mutate denotes done

theorem describes : (SharedMap.reference keyType elementType).Describes shared
    (operations keyType elementType) where
  getOwn view key found read := by
    obtain ⟨hostKey, denotes, rfl⟩ := Option.map_eq_some_iff.mp read
    exact getOwn_of_ofKey? denotes
  concerned view mutation strict judged expected := by
    obtain ⟨hostKey, denotes, rfl⟩ := Option.map_eq_some_iff.mp expected
    have settled := view.on_mutateOwn mutation strict
    rw [← shared_mutate denotes]
    exact (congrArg (Prod.map id shared) settled).trans (Verdict.settle_map rfl)
  unconcerned view mutation strict unknown := by
    obtain ⟨base, left⟩ :=
      view.exists_base_of_mutateOwn strict (Option.map_eq_none_iff.mp unknown)
    exact (congrArg shared left).trans rfl
  setPrototype _ _ := rfl
  preventExtensions _ := rfl
  edited _ _ := rfl

/-- A mutation of an entry leaves the other entries as they are and in their order, and there is a
new key only if there may be. -/
theorem EditsEntry.spares_others (edits : view.EditsEntry hostKey verdict next) :
    (next.entries.entries.filter fun entry => entry.1 ≠ hostKey) =
        (view.entries.entries.filter fun entry => entry.1 ≠ hostKey) ∧
      (hostKey ∈ next.entries.keys → hostKey ∉ view.entries.keys → view.growable = true) := by
  cases edits with
  | refused why => exact ⟨rfl, fun member absent => absurd member absent⟩
  | kept => exact ⟨rfl, fun member absent => absurd member absent⟩
  | stored element room =>
    refine ⟨view.entries.filter_entries_insert hostKey element, fun _ absent => ?_⟩
    exact room.resolve_right fun present => absent (contains_iff.mp present)
  | erased =>
    refine ⟨view.entries.filter_entries_erase hostKey, fun member _ => ?_⟩
    rw [OrderedMap.keys_erase] at member
    simp at member

theorem spares_others (view : HostMap keyType elementType) {next : HostMap keyType elementType}
    (strict : Bool) (denotes : keyType.ofKey? mutation.key = some hostKey)
    (left : ((mutateOwn mutation strict).on view).2 = next) :
    (next.entries.entries.filter fun entry => entry.1 ≠ hostKey) =
        (view.entries.entries.filter fun entry => entry.1 ≠ hostKey) ∧
      (hostKey ∈ next.entries.keys → hostKey ∉ view.entries.keys → view.growable = true) := by
  rw [view.on_mutateOwn] at left
  subst left
  rcases Verdict.settle_snd strict view (view.mutate mutation) with same | ⟨verdict, done⟩
  · rw [same]
    exact ⟨rfl, fun member absent => absurd member absent⟩
  · exact (editsEntry_mutate denotes done).spares_others

theorem secures : (operations keyType elementType).Secures (fun view => view.growable = false)
    fun view next => next.entries.keys ⊆ view.entries.keys where
  refl view := List.Subset.refl view.entries.keys
  trans early late := List.Subset.trans late early
  mutateOwn {view} mutation strict fixed := by
    have settled : (mutateOwn mutation strict).on view = _ := view.on_mutateOwn mutation strict
    rw [operations, settled]
    rcases Verdict.settle_snd strict view (view.mutate mutation) with same | ⟨verdict, done⟩
    · rw [same]
      exact ⟨fixed, List.Subset.refl _⟩
    · obtain ⟨stays, confines⟩ := confines_mutate fixed done
      cases confines with
      | map keys => exact ⟨stays, keys⟩
  setPrototype _ fixed := ⟨fixed, List.Subset.refl _⟩
  preventExtensions _ := ⟨rfl, List.Subset.refl _⟩
  edited _ fixed := fixed

/-- A view on a map, with the operations of the object that it is, is a map that remembers the order
of its keys: every series of calls at the view and edits by the host leaves the keys and elements
that it leaves in that map, and is answered as it is for the map.  A mutation at a key that denotes
a host key changes that entry alone, and adds it only if there may be new keys; one at any other key
does not touch the map.  What cannot be converted is a mismatch.  Once there may be no new keys,
only the host adds any. -/
theorem runs_as_map (view : HostMap keyType elementType)
    (calls : List (ViewCall (OrderedMap keyType.Carrier elementType.Carrier))) :
    (operations keyType elementType).ActAs .map ∧
      Foretells shared ((SharedMap.reference keyType elementType).run view.shared calls)
        ((operations keyType elementType).run view calls) ∧
      (∀ mutation strict next, ((mutateOwn mutation strict).on view).2 = next →
        (∀ hostKey, keyType.ofKey? mutation.key = some hostKey →
          (next.entries.entries.filter fun entry => entry.1 ≠ hostKey) =
              (view.entries.entries.filter fun entry => entry.1 ≠ hostKey) ∧
            (hostKey ∈ next.entries.keys → hostKey ∉ view.entries.keys →
              view.growable = true)) ∧
          (keyType.ofKey? mutation.key = none → next.entries = view.entries)) ∧
      (∀ value fault, elementType.ofValue value = .error fault →
        ∃ target, fault = .typeMismatch (.conversion value.typeName target)) ∧
      ∀ later : List (ViewCall (OrderedMap keyType.Carrier elementType.Carrier)),
        view.growable = false ∨ .preventExtensions ∈ calls →
        (∀ call ∈ later, call.isEdit = false) →
          ((operations keyType elementType).run view (calls ++ later)).2.entries.keys ⊆
            ((operations keyType elementType).run view calls).2.entries.keys := by
  refine ⟨actAs, describes.foretells view calls, ?_, ?_, ?_⟩
  · intro mutation strict next left
    refine ⟨fun _ denotes => view.spares_others strict denotes left, fun denotes => ?_⟩
    obtain ⟨base, kept⟩ := view.exists_base_of_mutateOwn strict denotes
    rw [← left, kept]
  · exact fun _ _ failed => ElementType.exists_mismatch_of_ofValue failed
  · exact fun _ fixed unedited => secures.run_stays fixed unedited

/-- A view on a map from numbers to truth values that has one entry and may get others. -/
def marks : HostMap .uint32 (.plain .boolean) :=
  ⟨OrderedMap.ofList ([(1, true)] : List (UInt32 × Bool)), true, .new none⟩

/-- Calls that add an entry and then allow no others. -/
def sealing :
    List (ViewCall (OrderedMap KeyType.uint32.Carrier (ElementType.plain .boolean).Carrier)) :=
  [.own (.write (.index 5) (.boolean true)) true, .preventExtensions]

/-- Calls that delete an entry and try to put it back, and another one besides. -/
def replacing :
    List (ViewCall (OrderedMap KeyType.uint32.Carrier (ElementType.plain .boolean).Carrier)) :=
  [.own (.delete (.index 1)) true, .own (.add (.index 1) (.boolean false)) false,
    .own (.define (.index 7) { value := some (.boolean true) }) true]

theorem runs_as_map_marks :
    ViewCall.preventExtensions ∈ sealing ∧ (∀ call ∈ replacing, call.isEdit = false) ∧
      ((operations .uint32 (.plain .boolean)).run marks (sealing ++ replacing)).2.entries.keys ⊆
        ([1, 5] : List UInt32) ∧
      ∃ next, (mutateOwn (.delete (.index 1)) true).on marks = (.ok true, next) ∧
        next.entries.entries.filter (fun entry => entry.1 ≠ (1 : UInt32)) =
          marks.entries.entries.filter fun entry => entry.1 ≠ (1 : UInt32) := by
  have fixed : ViewCall.preventExtensions ∈ sealing := .tail _ (.head _)
  have unedited : ∀ call ∈ replacing, call.isEdit = false := by
    rintro call (_ | ⟨_, _ | ⟨_, _ | ⟨_, ⟨⟩⟩⟩⟩) <;> rfl
  obtain ⟨_, _, spares, _, stays⟩ := runs_as_map marks sealing
  exact ⟨fixed, unedited, stays replacing (.inr fixed) unedited, _, rfl,
    ((spares (.delete (.index 1)) true _ rfl).1 (1 : UInt32) rfl).1⟩

end HostMap

end ObjectModel
