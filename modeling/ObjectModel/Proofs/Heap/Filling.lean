import ObjectModel.Proofs.Heap.Amendment
import ObjectModel.Proofs.Heap.Invariant
import ObjectModel.Proofs.Heap.Walk
import ObjectModel.Proofs.Object.Filling

/-!
# Heaps whose properties are filled with values

When a value is written to one object, the other views on the collection of that object show it,
too.  But no object loses a property, and none gets an accessor.  So a search that comes to an
accessor afterwards would have come to the same accessor before; and at a key that the object lacks
afterwards, all searches come to what they came to before.
-/

namespace ObjectModel

namespace Heap

variable {heap before after : Heap} {id : ObjectId} {key : Key} {object : Object}
  {cell : ObjectCell Representation} {found : Option Slot} {limit depth : Nat}

/-- Whether all objects that can be looked at were there before, under the same prototypes, and
their properties have been filled. -/
def Fills (before after : Heap) : Prop :=
  ∀ id next, after.examine id = .ok next → ∃ object, before.examine id = .ok object ∧
    next.prototype = object.prototype ∧
      ∀ key, Slot.Filled (object.getOwn key) (next.getOwn key)

theorem Fills.refl (heap : Heap) : heap.Fills heap := fun _ object seen =>
  ⟨object, seen, rfl, fun _ => .kept⟩

theorem Fills.foundWithin_eq (fills : before.Fills after) {slot : Slot}
    (isAccessor : slot.descriptor.isAccessor = true)
    (found : after.foundWithin key depth id = .ok (some slot)) :
    before.foundWithin key depth id = .ok (some slot) := by
  induction depth generalizing id with
  | zero => cases found
  | succ depth inductionHypothesis =>
    rw [foundWithin_succ] at found ⊢
    obtain ⟨final, seenAfter, found⟩ := exists_of_bind_eq_ok found
    obtain ⟨object, seen, linked, filled⟩ := fills id final seenAfter
    have filledKey := filled key
    rw [seen]
    simp only [Except.bind]
    cases own : final.getOwn key with
    | some held =>
      rw [own] at found filledKey
      cases found
      rw [filledKey.eq_of_isAccessor isAccessor]
    | none =>
      rw [own] at found filledKey
      rw [filledKey.eq_none, ← linked]
      cases link : final.prototype with
      | none =>
        rw [link] at found
        cases found
      | some next =>
        rw [link] at found
        exact inductionHypothesis found

theorem Finds.mono (finds : heap.Finds key limit id (.ok found)) {further : Nat}
    (within : limit ≤ further) : heap.Finds key further id (.ok found) := by
  cases finds with
  | held walk lacking room seen own =>
    exact .held walk lacking (Nat.lt_of_lt_of_le room within) seen own
  | absent walk lacking fits => exact .absent walk lacking (Nat.le_trans fits within)

theorem foundFrom_behind (searched : heap.foundWithin key limit id = .ok found)
    (seen : heap.examine id = .ok object) (absent : object.getOwn key = none) :
    heap.foundFrom key limit object.prototype = .ok found := by
  cases limit with
  | zero => cases searched
  | succ depth =>
    rw [foundWithin_succ, seen] at searched
    simp only [Except.bind, absent] at searched
    cases linked : object.prototype with
    | none =>
      rw [linked] at searched
      exact searched
    | some next =>
      rw [linked] at searched
      exact ((finds_iff.mpr searched).mono (Nat.le_succ depth)).foundWithin_eq

/-- Whether all objects that can be looked at keep their prototypes and what they have at a key. -/
def KeepsAt (before after : Heap) (key : Key) : Prop :=
  ∀ id object, before.examine id = .ok object → ∃ next, after.examine id = .ok next ∧
    next.prototype = object.prototype ∧ next.getOwn key = object.getOwn key

theorem KeepsAt.foundWithin_eq (keeps : before.KeepsAt after key)
    (searched : before.foundWithin key depth id = .ok found) :
    after.foundWithin key depth id = .ok found := by
  induction depth generalizing id with
  | zero => cases searched
  | succ depth inductionHypothesis =>
    rw [foundWithin_succ] at searched ⊢
    obtain ⟨object, seen, searched⟩ := exists_of_bind_eq_ok searched
    obtain ⟨next, seenAfter, linked, own⟩ := keeps id object seen
    rw [seenAfter]
    simp only [Except.bind, own, linked]
    cases held : object.getOwn key with
    | some slot =>
      rw [held] at searched
      exact searched
    | none =>
      rw [held] at searched
      cases link : object.prototype with
      | none =>
        rw [link] at searched
        exact searched
      | some further =>
        rw [link] at searched
        exact inductionHypothesis searched

theorem KeepsAt.foundFrom_eq (keeps : before.KeepsAt after key) {cursor : Option ObjectId}
    (searched : before.foundFrom key depth cursor = .ok found) :
    after.foundFrom key depth cursor = .ok found := by
  cases cursor with
  | none => exact searched
  | some next => exact keeps.foundWithin_eq searched

/-- Where one view on a grown collection has nothing, the other views have what they had. -/
theorem getOwn_showing_of_grows {collection grown : Collection} (grows : collection.Grows grown)
    {view : HostView} (absent : (view.showing grown).getOwn key = none) (other : HostView) :
    (other.showing grown).getOwn key = (other.showing collection).getOwn key := by
  cases grows with
  | @map keyType _ _ _ gone =>
    simp only [HostView.showing, Object.getOwn, HostMap.getOwn] at absent ⊢
    cases denotes : keyType.ofKey? key with
    | none => rfl
    | some hostKey =>
      simp only [denotes, Option.map_eq_none_iff] at absent
      simp only [absent, gone hostKey absent, Option.map_none]
  | sequence length =>
    cases key with
    | index i =>
      simp only [HostView.showing, Object.getOwn, HostSequence.getOwn, Option.map_eq_none_iff,
        List.getElem?_eq_none_iff] at absent ⊢
      rw [List.getElem?_eq_none absent, List.getElem?_eq_none (Nat.le_trans length absent)]
    | named text =>
      simp only [HostView.showing, Object.getOwn, HostSequence.getOwn] at absent ⊢
      split at absent
      next => cases absent
      next notLength => rw [if_neg notLength, if_neg notLength]

theorem look_store (found : heap.cell? id = some cell) (final : Object) {other : ObjectId}
    (apart : other ≠ id) : (heap.store id cell final).look other = heap.look other := by
  unfold look held
  rw [cell?_store found, if_neg apart]

theorem exists_of_examine (seen : heap.examine id = .ok object) :
    ∃ representation, heap.look id = .ok representation ∧
      heap.view? representation = some object := by
  obtain ⟨representation, looked, viewing⟩ := exists_of_bind_eq_ok seen
  exact ⟨representation, looked, view?_of_viewed viewing⟩

theorem examine_of_look {representation : Representation}
    (looked : heap.look id = .ok representation)
    (viewed : heap.view? representation = some object) : heap.examine id = .ok object := by
  unfold examine
  rw [looked]
  simp only [Except.bind, Heap.viewed, viewed]

theorem exists_grasp_of_mutate {mutation : OwnMutation} {verdict : Verdict} {final : Object}
    (grasped : heap.grasp id = .ok (cell, object))
    (done : object.mutate mutation = .ok (verdict, final)) :
    ∃ stored, (heap.store id cell final).grasp id = .ok (stored, final) := by
  obtain ⟨kind, isMap⟩ := retains_mutate mutation done
  exact exists_grasp_store grasped kind isMap

theorem examine_store {mutation : OwnMutation} {verdict : Verdict} {final : Object}
    (grasped : heap.grasp id = .ok (cell, object))
    (done : object.mutate mutation = .ok (verdict, final)) :
    (heap.store id cell final).examine id = .ok final := by
  obtain ⟨_, graspedAfter⟩ := exists_grasp_of_mutate grasped done
  exact (of_grasp graspedAfter).2.2

section Storing

variable {final : Object} {value : Value} {verdict : Verdict} {written : Key}
  (grasped : heap.grasp id = .ok (cell, object)) (notLength : written.isLength = false)
  (done : object.mutate (.write written value) = .ok (verdict, final))

include grasped notLength done

theorem collection?_store (source : CollectionId) :
    (heap.store id cell final).collection? source = heap.collection? source ∨
      ∃ collection grown view, heap.collection? source = some collection ∧
        (heap.store id cell final).collection? source = some grown ∧
        collection.Grows grown ∧ final = HostView.showing view grown := by
  have viewed := (of_grasp grasped).2.1
  obtain ⟨representation, borrow⟩ := cell
  cases representation
  case host view =>
    obtain ⟨collection, held, rfl⟩ := Option.map_eq_some_iff.mp viewed
    have stored (grown : Collection) :
        (heap.setCollection view.source grown).collection? source =
          if source = view.source then some grown else heap.collection? source :=
      collection?_setCollection held grown source
    cases collection with
    | map entries =>
      cases Object.mutates_of_mutate done with
      | @map _ _ _ after mutated =>
        have changed := stored (.map after.entries)
        split at changed
        next here =>
          exact .inr ⟨_, _, { view with growable := after.growable, base := after.base },
            here ▸ held, changed, (HostMap.grows_write mutated).2, rfl⟩
        next => exact .inl changed
    | sequence items =>
      cases Object.mutates_of_mutate done with
      | @sequence _ _ after mutated =>
        have changed := stored (.sequence after.items)
        split at changed
        next here =>
          exact .inr ⟨_, _, { view with growable := after.resizable, base := after.base },
            here ▸ held, changed, (HostSequence.grows_write notLength mutated).2, rfl⟩
        next => exact .inl changed
  all_goals exact .inl rfl

theorem filled_view? {representation : Representation} {next : Object}
    (viewedAfter : (heap.store id cell final).view? representation = some next) :
    ∃ object, heap.view? representation = some object ∧ next.prototype = object.prototype ∧
      ∀ key, Slot.Filled (object.getOwn key) (next.getOwn key) := by
  cases representation
  case host view =>
    obtain ⟨shared, sharedAfter, rfl⟩ := Option.map_eq_some_iff.mp viewedAfter
    rcases collection?_store grasped notLength done view.source with
      same | ⟨collection, grown, _, held, heldAfter, grows, _⟩
    · exact ⟨_, view?_host (same.symm.trans sharedAfter), by cases shared <;> rfl,
        by cases shared <;> exact fun _ => .kept⟩
    · cases sharedAfter.symm.trans heldAfter
      refine ⟨_, view?_host held, ?_⟩
      cases grows with
      | map gone => exact ⟨rfl, Object.filled_map (.map gone) fun _ => .kept⟩
      | sequence length => exact ⟨rfl, Object.filled_sequence (.sequence length) fun _ => .kept⟩
  case pending => cases viewedAfter
  case spent => cases viewedAfter
  all_goals exact ⟨next, viewedAfter, rfl, fun _ => .kept⟩

theorem kept_view? (absent : final.getOwn key = none) {representation : Representation}
    {old : Object} (viewed : heap.view? representation = some old) :
    ∃ next, (heap.store id cell final).view? representation = some next ∧
      next.prototype = old.prototype ∧ next.getOwn key = old.getOwn key := by
  cases representation
  case host view =>
    obtain ⟨shared, heldShared, rfl⟩ := Option.map_eq_some_iff.mp viewed
    rcases collection?_store grasped notLength done view.source with
      same | ⟨collection, grown, shower, held, heldAfter, grows, rfl⟩
    · exact ⟨_, view?_host (same.trans heldShared), by cases shared <;> rfl,
        by cases shared <;> rfl⟩
    · cases heldShared.symm.trans held
      refine ⟨_, view?_host heldAfter, by cases grows <;> rfl, ?_⟩
      rw [getOwn_showing_of_grows grows absent view]
      cases shared <;> rfl
  case pending => cases viewed
  case spent => cases viewed
  all_goals exact ⟨old, viewed, rfl, rfl⟩

variable (notArray : object.kind ≠ .array)

include notArray

theorem fills_store : heap.Fills (heap.store id cell final) := by
  obtain ⟨found, _, seen⟩ := of_grasp grasped
  intro other next seenAfter
  by_cases here : other = id
  · subst here
    cases seenAfter.symm.trans (examine_store grasped done)
    exact ⟨object, seen, Object.prototype_mutate done,
      Object.filled_write notArray notLength done⟩
  · obtain ⟨representation, looked, viewedAfter⟩ := exists_of_examine seenAfter
    obtain ⟨old, viewed, filled⟩ := filled_view? grasped notLength done viewedAfter
    rw [look_store found final here] at looked
    exact ⟨old, examine_of_look looked viewed, filled⟩

theorem keepsAt_store (absent : final.getOwn key = none) :
    heap.KeepsAt (heap.store id cell final) key := by
  obtain ⟨found, _, seen⟩ := of_grasp grasped
  intro other old seenOther
  by_cases here : other = id
  · subst here
    cases seenOther.symm.trans seen
    have filled := Object.filled_write notArray notLength done key
    rw [absent] at filled
    exact ⟨final, examine_store grasped done, Object.prototype_mutate done,
      absent.trans filled.eq_none.symm⟩
  · obtain ⟨representation, looked, viewed⟩ := exists_of_examine seenOther
    obtain ⟨next, viewedAfter, kept⟩ := kept_view? grasped notLength done absent viewed
    rw [← look_store found final here] at looked
    exact ⟨next, examine_of_look looked viewedAfter, kept⟩

end Storing

end Heap

end ObjectModel
