import ObjectModel.Proofs.Host.Map
import ObjectModel.Proofs.Object.Assignment
import ObjectModel.Proofs.Object.Listing

/-!
# Views that let their collections get no new keys

A view that is not to let its collection grow stores entries and items only where there are some, so
its collection gets no new keys through it.  Its further properties are another matter: an ordinary
object keeps them, which says for itself whether it may get new ones.  The two agree once extensions
have been prevented, but not in a view on a map that has been made fixed; that is where keys leak.
-/

namespace ObjectModel

namespace OrdinaryObject

variable {object next : OrdinaryObject} {mutation : OwnMutation} {verdict : Verdict}

theorem extensible_mutate (done : object.mutate mutation = .ok (verdict, next)) :
    next.extensible = object.extensible := by
  cases mutation with
  | write key value =>
    simp only [mutate, write, add] at done
    (repeat' split at done) <;> cases done <;> rfl
  | add key value =>
    simp only [mutate, add] at done
    split at done <;> cases done <;> rfl
  | define key request =>
    obtain ⟨resolution, _, done⟩ := exists_of_bind_eq_ok done
    cases resolution <;> cases done <;> rfl
  | delete key =>
    simp only [mutate, delete] at done
    (repeat' split at done) <;> cases done <;> rfl

/-- Whether an object that may get no new properties goes on so, and has got none. -/
structure Confines (object next : OrdinaryObject) : Prop where
  closed : object.extensible = false → next.extensible = false
  keys : object.extensible = false → ∀ key ∈ next.keys, key ∈ object.keys

namespace Confines

theorem refl (object : OrdinaryObject) : object.Confines object where
  closed := id
  keys _ _ := id

theorem trans {first second third : OrdinaryObject} (early : first.Confines second)
    (late : second.Confines third) : first.Confines third where
  closed closed := late.closed (early.closed closed)
  keys closed key member := early.keys closed key (late.keys (early.closed closed) key member)

theorem getOwn_eq_none (confines : object.Confines next) (closed : object.extensible = false)
    {key : Key} (absent : object.getOwn key = none) : next.getOwn key = none :=
  OrderedMap.not_mem_keys_iff.mp fun member =>
    OrderedMap.not_mem_keys absent (confines.keys closed key member)

end Confines

theorem confines_mutate (done : object.mutate mutation = .ok (verdict, next)) :
    object.Confines next := by
  have evolves (closed : object.extensible = false) : object.view.Evolves next.view := by
    cases mutation with
    | add key value =>
      -- The key need not be absent: nothing is added, so nothing is overwritten.
      have added : object.add key value = (verdict, next) := Except.ok.inj done
      rw [add_of_closed closed] at added
      cases added
      exact .refl _
    | _ => exact evolves_mutate (by trivial) done
  constructor
  case closed => exact fun closed => (extensible_mutate done).trans closed
  case keys =>
    intro closed key member
    refine Classical.byContradiction fun lacks => ?_
    have absent : object.getOwn key = none := OrderedMap.not_mem_keys_iff.mp lacks
    have absentNext : next.getOwn key = none :=
      ((evolves closed).properties key).absent absent closed
    exact OrderedMap.not_mem_keys absentNext member

theorem confines_setPrototype (object : OrdinaryObject) (prototype : Option ObjectId) :
    object.Confines (object.setPrototype prototype) where
  closed := id
  keys _ _ := id

theorem confines_preventExtensions (object : OrdinaryObject) :
    object.Confines object.preventExtensions where
  closed _ := rfl
  keys _ _ := id

end OrdinaryObject

theorem Rebases.confines {mutation : OwnMutation} {reserved : Key → Bool}
    {base next : OrdinaryObject} (rebases : Rebases mutation reserved base next) :
    base.Confines next := by
  cases rebases with
  | same => exact .refl base
  | mutated _ done => exact OrdinaryObject.confines_mutate done

/-- Whether a collection goes on as one of its type and has got no new keys. -/
inductive Collection.Confines : Collection → Collection → Prop
  | map {keyType : KeyType} {elementType : ElementType}
      {entries next : OrderedMap keyType.Carrier elementType.Carrier}
      (keys : ∀ hostKey ∈ next.keys, hostKey ∈ entries.keys) : Confines (.map entries) (.map next)
  | sequence {elementType : ElementType} {items next : List elementType.Carrier}
      (length : next.length = items.length) : Confines (.sequence items) (.sequence next)

namespace Collection.Confines

theorem refl (collection : Collection) : collection.Confines collection := by
  cases collection with
  | map entries => exact .map fun _ => id
  | sequence items => exact .sequence rfl

theorem trans {first second third : Collection} (early : first.Confines second)
    (late : second.Confines third) : first.Confines third := by
  cases early with
  | map keys =>
    cases late with
    | map keysLater => exact .map fun hostKey member => keys hostKey (keysLater hostKey member)
  | sequence length =>
    cases late with
    | sequence lengthLater => exact .sequence (lengthLater.trans length)

end Collection.Confines

namespace HostMap

variable {keyType : KeyType} {elementType : ElementType} {view next : HostMap keyType elementType}
  {hostKey : keyType.Carrier} {mutation : OwnMutation} {verdict : Verdict}

/-- An entry is stored in a map that may get no new keys only where there is one. -/
theorem EditsEntry.confines (edits : view.EditsEntry hostKey verdict next)
    (closed : view.growable = false) :
    next.growable = false ∧ (Collection.map view.entries).Confines (.map next.entries) := by
  cases edits with
  | refused why => exact ⟨closed, .refl _⟩
  | kept => exact ⟨closed, .refl _⟩
  | stored element room =>
    have present : hostKey ∈ view.entries.keys := by
      refine OrderedMap.mem_keys_iff.mpr (Option.isSome_iff_exists.mp (room.resolve_left ?_))
      exact Bool.eq_false_iff.mp closed
    refine ⟨closed, .map fun other member => ?_⟩
    rwa [OrderedMap.keys_insert, if_pos present] at member
  | erased =>
    refine ⟨closed, .map fun other member => ?_⟩
    rw [OrderedMap.keys_erase] at member
    exact (List.mem_filter.mp member).1

theorem confines_mutate (closed : view.growable = false)
    (done : view.mutate mutation = .ok (verdict, next)) :
    next.growable = false ∧ (Collection.map view.entries).Confines (.map next.entries) := by
  cases denotes : keyType.ofKey? mutation.key with
  | some hostKey => exact (editsEntry_mutate denotes done).confines closed
  | none =>
    rw [mutate_further denotes] at done
    obtain ⟨ended, _, same⟩ := exists_of_map_eq_ok done
    cases same
    exact ⟨closed, .refl _⟩

end HostMap

namespace HostSequence

variable {elementType : ElementType} {view next : HostSequence elementType}
  {mutation : OwnMutation} {verdict : Verdict}

/-- What a mutation makes of a view on a sequence. -/
inductive Edits (mutation : OwnMutation) (view : HostSequence elementType) :
    HostSequence elementType → Prop
  | kept : Edits mutation view view
  | stored {items : List elementType.Carrier} (length : items.length = view.items.length) :
      Edits mutation view { view with items }
  | resized (items : List elementType.Carrier) (room : view.resizable = true) :
      Edits mutation view { view with items }
  | further {base : OrdinaryObject} {verdict : Verdict}
      (done : view.base.mutate mutation = .ok (verdict, base)) :
      Edits mutation view { view with base }

theorem edits_store {index : Nat} {value : Value}
    (done : view.store index value = .ok (verdict, next)) : Edits mutation view next := by
  obtain ⟨item, _, done⟩ := exists_of_bind_eq_ok done
  split at done
  next =>
    cases done
    exact .stored List.length_set
  next =>
    split at done
    next room =>
      cases done
      exact .resized _ room
    next =>
      cases done
      exact .kept

theorem edits_resize {value : Value} (done : view.resize value = .ok (verdict, next)) :
    Edits mutation view next := by
  obtain ⟨length, _, done⟩ := exists_of_bind_eq_ok done
  split at done
  next =>
    cases done
    exact .kept
  next =>
    split at done
    next room =>
      cases done
      exact .resized _ room
    next =>
      cases done
      exact .kept

theorem edits_define_index {i : UInt32} {request : Request}
    (done : view.define (.index i) request = .ok (verdict, next)) : Edits mutation view next := by
  simp only [define] at done
  split at done
  next =>
    cases done
    exact .kept
  next => exact edits_store done
  next =>
    cases done
    exact .kept

theorem edits_define_length {text : Text} {request : Request}
    (isLength : (Key.named text).isLength = true)
    (done : view.define (.named text) request = .ok (verdict, next)) :
    Edits mutation view next := by
  simp only [define, isLength, if_true] at done
  split at done
  next =>
    cases done
    exact .kept
  next =>
    split at done
    next => exact edits_resize done
    next =>
      cases done
      exact .kept

theorem edits_mutate (done : view.mutate mutation = .ok (verdict, next)) :
    Edits mutation view next := by
  cases unreserved : mutation.key.isSpecial with
  | false =>
    rw [mutate_unreserved unreserved] at done
    obtain ⟨ended, mutated, same⟩ := exists_of_map_eq_ok done
    cases same
    exact .further mutated
  | true =>
    cases mutation with
    | write key value =>
      cases key with
      | index i => exact edits_store done
      | named text =>
        simp only [mutate, write, show (Key.named text).isLength = true from unreserved] at done
        exact edits_resize done
    | add key value =>
      cases key with
      | index i => exact edits_store done
      | named text =>
        cases done
        exact .further rfl
    | define key request =>
      cases key with
      | index i => exact edits_define_index done
      | named text => exact edits_define_length unreserved done
    | delete key =>
      cases key with
      | index i =>
        cases done
        exact .stored List.length_set
      | named text =>
        simp only [mutate, delete, show (Key.named text).isLength = true from unreserved] at done
        cases done
        exact .kept

theorem Edits.confines (edits : Edits mutation view next) (closed : view.resizable = false) :
    next.resizable = false ∧ (Collection.sequence view.items).Confines (.sequence next.items) := by
  cases edits with
  | kept => exact ⟨closed, .refl _⟩
  | stored length => exact ⟨closed, .sequence length⟩
  | resized items room => cases closed.symm.trans room
  | further done => exact ⟨closed, .refl _⟩

theorem Edits.flags (edits : Edits mutation view next) :
    next.resizable = view.resizable ∧ next.base.extensible = view.base.extensible := by
  cases edits with
  | further done => exact ⟨rfl, OrdinaryObject.extensible_mutate done⟩
  | _ => exact ⟨rfl, rfl⟩

end HostSequence

namespace Object

variable {object next : Object} {key : Key}

/-- Whether a view that may get no new properties may get one at a key all the same: one on a map,
if the key denotes no host key and the further properties have not been closed with the map. -/
def leaks : Object → Key → Bool
  | @Object.map keyType _ view, key =>
    !view.growable && view.base.extensible && (keyType.ofKey? key).isNone
  | _, _ => false

/-- Whether an object has got no own properties at keys that do not leak, and lists no new keys if
its further properties are closed. -/
structure KeepsKeys (object next : Object) : Prop where
  found : ∀ key, object.leaks key = false → object.getOwn key = none → next.getOwn key = none
  listed : object.base.extensible = false → ∀ key ∈ next.ownKeys.map Prod.fst,
    key ∈ object.ownKeys.map Prod.fst

theorem exists_add_of_leaks (leaks : object.leaks key = true) (value : Value) :
    ∃ next, object.add key value = .ok (.accepted, next) ∧ next.isExtensible = false ∧
      next.getOwn key = some (.bare value) := by
  cases object
  case map keyType elementType view =>
    simp only [Object.leaks, Bool.and_eq_true, Bool.not_eq_true', Option.isNone_iff_eq_none]
      at leaks
    obtain ⟨⟨closed, extensible⟩, further⟩ := leaks
    refine ⟨.map { view with base := view.base.store key (.bare value) }, ?_, closed, ?_⟩
    · simp only [add, HostMap.add, further, OrdinaryObject.add, extensible, if_true]
      rfl
    · simp only [getOwn, HostMap.getOwn, further, OrdinaryObject.getOwn_store, if_true]
  all_goals cases leaks

theorem keepsKeys_map {keyType : KeyType} {elementType : ElementType}
    {view next : HostMap keyType elementType} (closed : view.growable = false)
    (entries : (Collection.map view.entries).Confines (.map next.entries))
    (base : view.base.Confines next.base) : (Object.map view).KeepsKeys (.map next) := by
  cases entries with
  | map keys =>
  constructor
  case found =>
    intro key tight absent
    cases denotes : keyType.ofKey? key with
    | some hostKey =>
      simp only [getOwn, HostMap.getOwn, denotes, Option.map_eq_none_iff] at absent ⊢
      rw [← OrderedMap.not_mem_keys_iff] at absent ⊢
      exact fun member => absent (keys hostKey member)
    | none =>
      have closedBase : view.base.extensible = false := by
        simpa [leaks, closed, denotes] using tight
      simp only [getOwn, HostMap.getOwn, denotes] at absent ⊢
      exact base.getOwn_eq_none closedBase absent
  case listed =>
    intro closedBase key member
    simp only [ownKeys, HostMap.map_fst_ownKeys, List.mem_append] at member ⊢
    refine member.imp (fun entry => ?_) (base.keys closedBase key)
    obtain ⟨hostKey, listed, rfl⟩ := List.mem_map.mp entry
    exact List.mem_map.mpr ⟨hostKey, keys hostKey listed, rfl⟩

theorem keepsKeys_sequence {elementType : ElementType} {view next : HostSequence elementType}
    (closed : view.base.extensible = false)
    (items : (Collection.sequence view.items).Confines (.sequence next.items))
    (base : view.base.Confines next.base) : (Object.sequence view).KeepsKeys (.sequence next) := by
  cases items with
  | sequence length =>
  constructor
  case found =>
    intro key _ absent
    cases key with
    | index i =>
      simp only [getOwn, HostSequence.getOwn, Option.map_eq_none_iff, List.getElem?_eq_none_iff]
        at absent ⊢
      rwa [length]
    | named text =>
      simp only [getOwn, HostSequence.getOwn] at absent ⊢
      split at absent
      next => cases absent
      next notLength =>
        rw [if_neg notLength]
        exact base.getOwn_eq_none closed absent
  case listed =>
    have further (inner : HostSequence elementType) :
        inner.base.ownKeys.map Prod.fst = inner.base.keys := map_fst_ownKeys_base (.sequence inner)
    intro _ key member
    simp only [ownKeys, HostSequence.ownKeys, List.map_append, List.map_cons, List.mem_append,
      List.mem_cons, length, further] at member ⊢
    exact member.imp id (Or.imp id (base.keys closed key))

end Object

end ObjectModel
