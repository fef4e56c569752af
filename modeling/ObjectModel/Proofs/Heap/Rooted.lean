import ObjectModel.Proofs.Heap.Ancestry
import ObjectModel.Proofs.Heap.Atomicity
import ObjectModel.Proofs.Heap.Direct

/-!
# Heaps without cycles

From every handle of a rooted heap the prototype links lead to an object without prototype.  New
objects that link to old ones keep a heap rooted, and so does everything that the protocol does to
its objects; a link is refused exactly if it would close a cycle.
-/

namespace ObjectModel

namespace Heap

variable {heap after : Heap} {id : ObjectId} {cell : ObjectCell Representation}
  {object next : Object} {link : Option ObjectId} {path : List ObjectId}

/-- Whether a representation may be allocated: it stands for an object, and its prototype, if it has
one, is allocated. -/
def grounds (heap : Heap) (representation : Representation) : Bool :=
  representation.stands heap.collections.size &&
    representation.link.all fun prototype => prototype.index < heap.size

/-- A heap of objects that nobody holds, from each of which the prototype links lead to an end. -/
structure Rooted (heap : Heap) : Prop extends heap.Plain where
  rooted : ∀ id, id.index < heap.size → ∃ path, heap.Ancestry (some id) path

theorem link_represent {old : Representation} (viewed : heap.view? old = some object)
    (kind : next.kind = object.kind) :
    (represent old next).link = next.prototype ∧
      ∀ collections, (represent old next).stands collections = old.stands collections := by
  cases old
  case host view =>
    obtain ⟨collection, _, rfl⟩ := Option.map_eq_some_iff.mp viewed
    cases collection
    all_goals cases next <;> first | exact ⟨rfl, fun _ => rfl⟩ | cases kind
  case pending factory => cases viewed
  case spent => cases viewed
  all_goals
    cases viewed
    cases next <;> first | exact ⟨rfl, fun _ => rfl⟩ | cases kind

theorem size_store (heap : Heap) (id : ObjectId) (cell : ObjectCell Representation)
    (next : Object) :
    (heap.store id cell next).size = heap.size ∧
      (heap.store id cell next).collections.size = heap.collections.size := by
  unfold store
  simp only
  split
  next => exact ⟨Array.size_setIfInBounds, Array.size_setIfInBounds⟩
  next => exact ⟨Array.size_setIfInBounds, rfl⟩

theorem policy_store (heap : Heap) (id : ObjectId) (cell : ObjectCell Representation)
    (next : Object) : (heap.store id cell next).policy = heap.policy := by
  unfold store
  simp only
  split <;> rfl

theorem link?_store (found : heap.cell? id = some cell) (other : ObjectId) :
    (heap.store id cell next).link? other =
      if other = id then some (represent cell.value next).link else heap.link? other := by
  unfold link?
  rw [cell?_store found]
  split <;> rfl

theorem link?_push (heap : Heap) (representation : Representation) (id : ObjectId) :
    ({ heap with cells := heap.cells.push (.new representation) } : Heap).link? id =
      if id.index = heap.size then some representation.link else heap.link? id := by
  unfold link? size
  rw [cell?_push]
  split <;> rfl

namespace Rooted

theorem of_cells (rooted : heap.Rooted) (cells : after.cells = heap.cells)
    (collections : heap.collections.size ≤ after.collections.size) : after.Rooted := by
  have same : ∀ id, after.cell? id = heap.cell? id := by
    intro id
    unfold cell?
    rw [cells]
  refine ⟨⟨?_, ?_⟩, ?_⟩
  · intro id cell found
    exact rooted.free ((same id).symm.trans found)
  · intro id cell found
    have stands := rooted.stands ((same id).symm.trans found)
    cases shown : cell.value with
    | host view =>
      rw [shown] at stands
      have inside : view.source.index < heap.collections.size := of_decide_eq_true stands
      exact decide_eq_true (Nat.lt_of_lt_of_le inside collections)
    | _ =>
      rw [shown] at stands
      exact stands
  · intro id inside
    have insideBefore : id.index < heap.size := by
      unfold size at inside ⊢
      rw [← cells]
      exact inside
    obtain ⟨path, ancestry⟩ := rooted.rooted id insideBefore
    refine ⟨path, ancestry.congr ?_⟩
    intro other _
    unfold link?
    rw [same]

theorem store (rooted : heap.Rooted) (grasped : heap.grasp id = .ok (cell, object))
    (kind : next.kind = object.kind) (ancestry : heap.Ancestry next.prototype path)
    (apart : id ∉ path) : (heap.store id cell next).Rooted := by
  obtain ⟨found, viewed, _⟩ := of_grasp grasped
  obtain ⟨linkAfter, standsAfter⟩ := link_represent viewed kind
  obtain ⟨sameSize, sameCollections⟩ := heap.size_store id cell next
  refine ⟨⟨?_, ?_⟩, ?_⟩
  · intro other stored foundAfter
    rw [cell?_store found] at foundAfter
    split at foundAfter
    next =>
      cases foundAfter
      have free : cell.borrow = .free := rooted.free found
      exact free
    next => exact rooted.free foundAfter
  · intro other stored foundAfter
    rw [sameCollections]
    rw [cell?_store found] at foundAfter
    split at foundAfter
    next =>
      cases foundAfter
      rw [standsAfter]
      exact rooted.stands found
    next => exact rooted.stands foundAfter
  · intro other inside
    rw [sameSize] at inside
    obtain ⟨_, ancestryOther⟩ := rooted.rooted other inside
    refine ancestry.relink apart ?_ ?_ ancestryOther
    · rw [link?_store found, if_pos rfl, linkAfter]
    · intro another different
      rw [link?_store found, if_neg different]

theorem exists_ancestry (rooted : heap.Rooted) (linked : heap.link? id = some link) :
    ∃ path, heap.Ancestry link path ∧ id ∉ path := by
  obtain ⟨path, ancestry⟩ := rooted.rooted id (lt_size_of_link? linked)
  have same := ancestry
  cases ancestry with
  | @link _ _ rest linkedToo ancestryRest =>
    rw [linked] at linkedToo
    cases linkedToo
    exact ⟨rest, ancestryRest, same.not_mem⟩

theorem link?_of_grasp (grasped : heap.grasp id = .ok (cell, object)) :
    heap.link? id = some object.prototype := by
  obtain ⟨found, viewed, _⟩ := of_grasp grasped
  unfold link?
  rw [found, prototype_of_view? viewed]
  rfl

theorem store_linked (rooted : heap.Rooted) (grasped : heap.grasp id = .ok (cell, object))
    (kind : next.kind = object.kind) (linked : next.prototype = object.prototype) :
    (heap.store id cell next).Rooted := by
  obtain ⟨path, ancestry, apart⟩ := rooted.exists_ancestry (link?_of_grasp grasped)
  rw [← linked] at ancestry
  exact rooted.store grasped kind ancestry apart

theorem push (rooted : heap.Rooted) {representation : Representation}
    (grounds : heap.grounds representation = true) :
    ({ heap with cells := heap.cells.push (.new representation) } : Heap).Rooted := by
  obtain ⟨stands, linked⟩ := Bool.and_eq_true_iff.mp grounds
  have transported : ∀ {cursor path}, heap.Ancestry cursor path →
      ({ heap with cells := heap.cells.push (.new representation) } : Heap).Ancestry cursor
        path := by
    intro cursor path ancestry
    apply ancestry.congr
    intro id member
    rw [link?_push, if_neg (Nat.ne_of_lt (ancestry.lt_size member))]
  refine ⟨⟨?_, ?_⟩, ?_⟩
  · intro id cell found
    rw [cell?_push] at found
    split at found
    next =>
      cases found
      rfl
    next => exact rooted.free found
  · intro id cell found
    rw [cell?_push] at found
    split at found
    next =>
      cases found
      exact stands
    next => exact rooted.stands found
  · intro id inside
    have bound : id.index < heap.size + 1 := by
      unfold size at inside ⊢
      rw [Array.size_push] at inside
      exact inside
    rcases Nat.lt_succ_iff_lt_or_eq.mp bound with old | new
    · obtain ⟨path, ancestry⟩ := rooted.rooted id old
      exact ⟨path, transported ancestry⟩
    · have found := link?_push heap representation id
      rw [if_pos new] at found
      cases link : representation.link with
      | none =>
        rw [link] at found
        exact ⟨[id], .link found .ends⟩
      | some prototype =>
        rw [link] at linked found
        obtain ⟨path, ancestry⟩ := rooted.rooted prototype (of_decide_eq_true linked)
        exact ⟨id :: path, .link found (transported ancestry)⟩

theorem exists_ancestry_of_linksTo (rooted : heap.Rooted) {depth : Nat}
    (searched : heap.linksTo id depth link = .ok false) :
    ∃ path, heap.Ancestry link path ∧ id ∉ path := by
  have exists_path : ∃ path, heap.Ancestry link path := by
    cases link with
    | none => exact ⟨[], .ends⟩
    | some next =>
      cases depth with
      | zero =>
        unfold linksTo at searched
        split at searched <;> cases searched
      | succ depth =>
        unfold linksTo at searched
        split at searched
        next => cases searched
        next =>
          obtain ⟨_, examined, _⟩ := exists_of_bind_eq_ok searched
          obtain ⟨_, seen, _⟩ := exists_of_map_eq_ok examined
          obtain ⟨_, looked, _⟩ := exists_of_bind_eq_ok seen
          obtain ⟨_, found, _⟩ := cell?_of_look looked
          exact rooted.rooted next (Array.getElem?_eq_some_iff.mp found).1
  obtain ⟨path, ancestry⟩ := exists_path
  exact ⟨path, ancestry, rooted.not_mem_of_linksTo ancestry searched⟩

theorem exists_grasp_of_examine (rooted : heap.Rooted) (examined : heap.examine id = .ok object) :
    ∃ cell, heap.grasp id = .ok (cell, object) := by
  obtain ⟨representation, looked, viewed⟩ := exists_of_bind_eq_ok examined
  obtain ⟨cell, found, rfl⟩ := cell?_of_look looked
  have grasped := grasp_eq found (view?_of_viewed viewed)
  rw [rooted.free found] at grasped
  exact ⟨cell, grasped⟩

/-- A link to a handle is refused if its ancestry leads back, and set otherwise. -/
theorem on_setPrototype (rooted : heap.Rooted) (engine : Engine)
    (examined : heap.examine id = .ok object) (extensible : object.isExtensible = true)
    (ancestry : heap.Ancestry link path) (fits : path.length ≤ heap.policy.maxPrototypeDepth) :
    (id ∈ path →
      (judgePrototype engine id link).on heap = some (.ok (.refused .cyclicPrototype), heap)) ∧
    (id ∉ path → ∃ after, (judgePrototype engine id link).on heap = some (.ok .accepted, after) ∧
      after.link? id = some link ∧ ∀ other, other ≠ id → after.cell? other = heap.cell? other) := by
  have eager := rooted.eager
  obtain ⟨cell, grasped⟩ := rooted.exists_grasp_of_examine examined
  have linked := link?_of_grasp grasped
  unfold judgePrototype
  rw [Action.on_bind, eager.on_inspect, examined]
  simp only [extensible, Bool.not_true, Bool.false_eq_true, if_false]
  by_cases same : object.prototype = link
  · -- A link that is already there does not lead back, for the heap is rooted.
    rw [if_pos same]
    obtain ⟨own, ancestryOwn, apart⟩ := rooted.exists_ancestry linked
    rw [same] at ancestryOwn linked
    rw [ancestry.unique ancestryOwn] at apart
    exact ⟨fun member => absurd member apart, fun _ => ⟨heap, rfl, linked, fun _ _ => rfl⟩⟩
  · rw [if_neg same, Action.on_bind_ok (Action.on_get heap), Action.on_bind, eager.on_leadsTo,
      rooted.linksTo_eq ancestry fits]
    by_cases member : id ∈ path
    · rw [decide_eq_true member]
      exact ⟨fun _ => rfl, fun apart => absurd member apart⟩
    · rw [decide_eq_false member]
      refine ⟨fun cyclic => absurd cyclic member, fun _ => ?_⟩
      have amended := (eager.ready id).on_judge engine
        fun object => .ok ((), object.setPrototype link)
      rw [grasped] at amended
      obtain ⟨found, viewed, _⟩ := of_grasp grasped
      refine ⟨heap.store id cell (object.setPrototype link), ?_, ?_, ?_⟩
      · simp only [Bool.false_eq_true, if_false]
        exact Action.on_bind_ok amended _
      · have represented := link_represent viewed (object.kind_setPrototype link)
        rw [link?_store found, if_pos rfl, represented.1, Object.prototype_setPrototype]
      · intro other different
        rw [cell?_store found, if_neg different]

theorem new (policy : Policy) : (Heap.new policy).Rooted := by
  have root : (Heap.new policy).Ancestry (some objectPrototype) [objectPrototype] :=
    .link rfl .ends
  refine ⟨⟨?_, ?_⟩, ?_⟩
  · rintro ⟨_ | _ | _ | _ | index⟩ cell found <;> cases found <;> rfl
  · rintro ⟨_ | _ | _ | _ | index⟩ cell found <;> cases found <;> rfl
  · rintro ⟨_ | _ | _ | _ | index⟩ inside
    · exact ⟨_, root⟩
    · exact ⟨_, .link rfl root⟩
    · exact ⟨_, .link rfl root⟩
    · exact ⟨_, .link rfl root⟩
    · exact absurd inside (by simp [size, Heap.new])

end Rooted

/-- The regime in which all prototype chains end. -/
def rooting : Regime where
  safe := Rooted
  leadsTo before after := after.policy = before.policy
  refl _ := rfl
  trans first second := second.trans first

theorem tolerates_rooting : rooting.Tolerates .free where
  eager rooted := rooted.eager
  obeys _ _ _ _ := Representation.obeys_free _
  recorded rooted _ := ⟨rooted.of_cells rfl (Nat.le_refl _), rfl⟩
  mutated rooted _ _ _ grasped _ _ _ _ mutated :=
    ⟨rooted.store_linked grasped (Object.kind_mutate mutated) (Object.prototype_mutate mutated),
      policy_store _ _ _ _⟩
  linked := by
    intro heap rooted id cell object grasped _ depth prototype searched
    obtain ⟨path, ancestry, apart⟩ := rooted.exists_ancestry_of_linksTo searched
    rw [← object.prototype_setPrototype prototype] at ancestry
    exact ⟨rooted.store grasped (object.kind_setPrototype prototype) ancestry apart,
      policy_store _ _ _ _⟩
  closed rooted _ _ object grasped :=
    ⟨rooted.store_linked grasped object.kind_preventExtensions object.prototype_preventExtensions,
      policy_store _ _ _ _⟩
  hosted rooted _ _ size := ⟨rooted.of_cells rfl size, rfl⟩

end Heap

end ObjectModel
