import ObjectModel.Proofs.Heap.Amendment
import ObjectModel.Proofs.Heap.Enumeration
import ObjectModel.Proofs.Heap.Reading
import ObjectModel.Proofs.Heap.Rooted

/-!
# How deep chains may be

Reading, enumerating and the search for cycles give up after the same number of objects.  Whatever
starts at an object counts the object itself, but the search that is made before its link is set
counts from its new prototype on.  So it lets a chain pass that is longer by one than what may be
walked afterwards.
-/

namespace ObjectModel

namespace Heap

variable {heap after : Heap} {engine : Engine} {id proto : ObjectId} {object : Object}
  {objects : List Object} {depth : Nat} {prototype : Option ObjectId} {strict : Bool}

/-- Whether everything that walks the chain of a handle comes to its end: what is found is read, and
the keys are listed. -/
structure Walkable (heap : Heap) (id : ObjectId) : Prop where
  get : ∀ engine key receiver, ∃ slot,
    ((Command.get id key receiver).execute engine).on heap = heap.reading engine receiver (.ok slot)
  has : ∀ engine key, ∃ found,
    ((Command.has id key).execute engine).on heap = some (.ok found, heap)
  enumerate : ∀ engine all, ∃ keys,
    ((Command.enumerate id all true).execute engine).on heap = some (.ok keys, heap)

/-- What walks a chain that is too long for it fails, unless it finds what it looks for in time. -/
structure GivesUp (heap : Heap) (id : ObjectId) (visited : List Object) : Prop where
  get : ∀ engine key receiver, key.isProto = false →
    (∀ object ∈ visited, object.getOwn key = none) →
      ((Command.get id key receiver).execute engine).on heap =
        some (.error (.internal .chainTooDeep), heap)
  has : ∀ engine key, (∀ object ∈ visited, object.getOwn key = none) →
    ((Command.has id key).execute engine).on heap = some (.error (.internal .chainTooDeep), heap)
  enumerate : ∀ engine all, ((Command.enumerate id all true).execute engine).on heap =
    some (.error (.internal .chainTooDeep), heap)

namespace Chain

theorem exists_walk (chain : heap.Chain id objects) (short : depth < objects.length) :
    ∃ next, heap.Walk (some id) (objects.take depth) (some next) := by
  induction chain generalizing depth with
  | last seen ends =>
    obtain _ | depth := depth
    · exact ⟨_, .stay _⟩
    · exact absurd (Nat.lt_of_succ_lt_succ short) (Nat.not_lt_zero _)
  | link seen linked chain inductionHypothesis =>
    obtain _ | depth := depth
    · exact ⟨_, .stay _⟩
    · obtain ⟨next, walk⟩ := inductionHypothesis (Nat.lt_of_succ_lt_succ short)
      exact ⟨next, .step seen (linked ▸ walk)⟩

theorem on_enumerateWithin_long (chain : heap.Chain id objects) (eager : heap.Eager)
    (short : depth < objects.length) (engine : Engine) (all : Bool) (seen : List Key) :
    (enumerateWithin engine all true depth seen id).on heap =
      some (.error (.internal .chainTooDeep), heap) := by
  induction chain generalizing depth seen with
  | last examined ends =>
    obtain _ | depth := depth
    · rfl
    · exact absurd (Nat.lt_of_succ_lt_succ short) (Nat.not_lt_zero _)
  | @link id next object rest examined linked chain inductionHypothesis =>
    obtain _ | depth := depth
    · rfl
    · have inspected := eager.on_inspect engine id
      rw [examined] at inspected
      have later := inductionHypothesis (Nat.lt_of_succ_lt_succ short)
        (newKeys all seen object.ownKeys).2
      unfold enumerateWithin
      rw [Action.on_bind_ok inspected]
      simp only [if_true, linked]
      exact Action.on_bind_error later _

theorem givesUp (chain : heap.Chain id objects) (eager : heap.Eager)
    (long : heap.policy.maxPrototypeDepth < objects.length) :
    heap.GivesUp id (objects.take heap.policy.maxPrototypeDepth) := by
  obtain ⟨next, walk⟩ := chain.exists_walk long
  have full := List.length_take_of_le (Nat.le_of_lt long)
  constructor
  · intro engine key receiver plain lacking
    rw [eager.on_get engine (.of_plain plain id), (Finds.tooDeep walk lacking full).foundWithin_eq]
    rfl
  · intro engine key lacking
    rw [eager.on_has engine id key, (Finds.tooDeep walk lacking full).foundWithin_eq]
    rfl
  · intro engine all
    have policy := Action.on_bind_ok (Action.on_get heap) fun current =>
      enumerateWithin engine all true current.policy.maxPrototypeDepth [] id
    exact policy.trans (chain.on_enumerateWithin_long eager long engine all [])

theorem walkable (chain : heap.Chain id objects) (eager : heap.Eager)
    (fits : objects.length ≤ heap.policy.maxPrototypeDepth) : heap.Walkable id := by
  constructor
  · intro engine key receiver
    by_cases meant : heap.MeansProperty id key
    · have gotten := eager.on_get engine meant receiver
      rw [chain.foundWithin_eq fits] at gotten
      exact ⟨_, gotten⟩
    · obtain ⟨object, rest, rfl⟩ : ∃ object rest, objects = object :: rest := by
        cases chain <;> exact ⟨_, _, rfl⟩
      obtain ⟨isProto, unowned⟩ := Classical.not_imp.mp meant
      have absent : object.getOwn key = none := by
        cases own : object.getOwn key with
        | none => rfl
        | some slot => exact absurd ⟨object, chain.examine_eq, by rw [own]; rfl⟩ unowned
      have linked := eager.on_get_link engine chain.examine_eq isProto absent receiver
      exact ⟨some (.bare _), linked⟩
  · intro engine key
    have looked := eager.on_has engine id key
    rw [chain.foundWithin_eq fits] at looked
    exact ⟨_, looked⟩
  · intro engine all
    exact ⟨_, chain.on_enumerate eager fits engine all true⟩

/-- The chains that can be walked are those that fit the limit. -/
theorem walkable_iff (chain : heap.Chain id objects) (eager : heap.Eager) :
    heap.Walkable id ↔ objects.length ≤ heap.policy.maxPrototypeDepth := by
  constructor
  · intro walkable
    refine Nat.le_of_not_lt fun long => ?_
    obtain ⟨keys, listed⟩ := walkable.enumerate (.within 0) true
    cases ((chain.givesUp eager long).enumerate _ _).symm.trans listed
  · exact chain.walkable eager

end Chain

theorem collections_store_setPrototype {cell : ObjectCell Representation}
    (viewed : heap.view? cell.value = some object) (prototype : Option ObjectId) :
    (heap.store id cell (object.setPrototype prototype)).collections = heap.collections := by
  obtain ⟨representation, borrow⟩ := cell
  cases representation
  case host view =>
    obtain ⟨collection, shared, rfl⟩ := Option.map_eq_some_iff.mp viewed
    have same := congrArg Heap.collections (setCollection_self shared)
    cases collection <;> exact same
  all_goals rfl

theorem alters_store_setPrototype (eager : heap.Eager) {cell : ObjectCell Representation}
    (grasped : heap.grasp id = .ok (cell, object)) (prototype : Option ObjectId) :
    heap.Alters (heap.store id cell (object.setPrototype prototype)) id
      (object.setPrototype prototype) := by
  obtain ⟨found, viewed, _⟩ := of_grasp grasped
  have rearranges : object.Rearranges (fun _ => True) (object.setPrototype prototype) :=
    object.rearranges_setPrototype prototype
  obtain ⟨stored, graspedAfter⟩ := exists_grasp_store grasped rearranges.kind rearranges.isMap
  refine ⟨eager.store found _, (of_grasp graspedAfter).2.2, ?_, policy_store heap id cell _⟩
  intro other different
  refine examine_congr ?_ (collections_store_setPrototype viewed prototype)
  rw [cell?_store found, if_neg different]

theorem Eager.exists_alters_of_setPrototype (eager : heap.Eager)
    (seen : heap.examine id = .ok object) (changes : object.prototype ≠ prototype)
    (ran : ((Command.setPrototype id prototype strict).execute engine).on heap =
      some (.ok true, after)) :
    heap.linksTo id heap.policy.maxPrototypeDepth prototype = .ok false ∧
      heap.Alters after id (object.setPrototype prototype) := by
  rw [Command.execute_setPrototype] at ran
  have accepted := on_eq_accepted_of_on_report ran
  have inspected := eager.on_inspect engine id
  rw [seen] at inspected
  unfold judgePrototype at accepted
  rw [Action.on_bind_ok inspected, if_neg changes] at accepted
  split at accepted
  next => cases accepted
  next =>
    have searched := eager.on_leadsTo engine id heap.policy.maxPrototypeDepth prototype
    rw [Action.on_bind_ok (Action.on_get heap)] at accepted
    obtain ⟨led, mid, leading, accepted⟩ := Action.exists_of_on_bind_ok accepted
    obtain ⟨avoids, rfl⟩ := Prod.mk.inj (Option.some.inj (searched.symm.trans leading))
    cases led with
    | true => cases accepted
    | false =>
      obtain ⟨_, last, amended, ended⟩ := Action.exists_of_on_bind_ok accepted
      cases ended
      obtain ⟨cell, found, _, grasped, changed, rfl⟩ :=
        (eager.ready id).exists_store_of_on_judge amended
      cases changed
      cases seen.symm.trans (of_grasp grasped).2.2
      exact ⟨avoids, alters_store_setPrototype eager grasped prototype⟩

/-- A prototype that is accepted can be searched itself, but what it is given to cannot, if the
chain of the prototype is as long as chains may be. -/
theorem Eager.walkable_after_setPrototype (eager : heap.Eager)
    (seen : heap.examine id = .ok object) (changes : object.prototype ≠ some proto)
    (ran : ((Command.setPrototype id (some proto) strict).execute engine).on heap =
      some (.ok true, after)) :
    heap.Walkable proto ∧
      ∃ objects, heap.Chain proto objects ∧
        after.Chain id (object.setPrototype (some proto) :: objects) ∧
        objects.length ≤ after.policy.maxPrototypeDepth ∧
        (after.Walkable id ↔ objects.length < after.policy.maxPrototypeDepth) ∧
        (objects.length = after.policy.maxPrototypeDepth →
          after.GivesUp id ((object.setPrototype (some proto) :: objects).take
            after.policy.maxPrototypeDepth)) := by
  obtain ⟨avoids, alters⟩ := eager.exists_alters_of_setPrototype seen changes ran
  obtain ⟨objects, fits, chain, chainAfter⟩ := exists_chain_of_linksTo avoids alters.others
  have chainOwn : after.Chain id (object.setPrototype (some proto) :: objects) :=
    .link alters.seen (object.prototype_setPrototype _) chainAfter
  refine ⟨chain.walkable eager fits, objects, chain, chainOwn, ?_, ?_, ?_⟩
  · rw [alters.policy]
    exact fits
  · rw [chainOwn.walkable_iff alters.eager, List.length_cons, Nat.succ_le_iff]
  · intro full
    apply chainOwn.givesUp alters.eager
    rw [← full]
    exact Nat.lt_succ_self _

/-- A heap in which chains of two objects may be walked, with an object that inherits from the
prototype of objects and one that inherits from nothing. -/
def shallowHeap : Heap :=
  let heap := new { maxPrototypeDepth := 2 }
  { heap with
    cells := heap.cells ++
      #[.new (.ordinary (.new (some objectPrototype))), .new (.ordinary (.new none))] }

theorem shallowHeap_eager : shallowHeap.Eager := by
  rintro ⟨_ | _ | _ | _ | _ | _ | index⟩ cell found <;> cases found <;> rfl

/-- A prototype that ends its chain may be given to an object and searched from there. -/
theorem walkable_after_setPrototype_shallowHeap :
    shallowHeap.Eager ∧ shallowHeap.examine ⟨5⟩ = .ok (.ordinary (.new none)) ∧
      (Object.ordinary (.new none)).prototype ≠ some objectPrototype ∧
      ∃ after, ((Command.setPrototype ⟨5⟩ (some objectPrototype) false).execute (.within 0)).on
          shallowHeap = some (.ok true, after) ∧ after.Walkable ⟨5⟩ := by
  have seen : shallowHeap.examine ⟨5⟩ = .ok (.ordinary (.new none)) := rfl
  have changes : (Object.ordinary (.new none)).prototype ≠ some objectPrototype := nofun
  obtain ⟨after, ran⟩ : ∃ after,
      ((Command.setPrototype ⟨5⟩ (some objectPrototype) false).execute (.within 0)).on shallowHeap =
        some (.ok true, after) := ⟨_, rfl⟩
  obtain ⟨_, objects, chain, _, _, walkable, _⟩ :=
    shallowHeap_eager.walkable_after_setPrototype seen changes ran
  have root : shallowHeap.Chain objectPrototype [.ordinary (.new none)] := .last rfl rfl
  cases chain.unique root
  refine ⟨shallowHeap_eager, seen, changes, after, ran, walkable.mpr ?_⟩
  cases ran
  exact Nat.lt_succ_self 1

/-- A prototype that inherits itself may be given to the object, too, and everything that has to
search the whole chain fails from then on. -/
theorem givesUp_after_setPrototype_shallowHeap :
    shallowHeap.Eager ∧ shallowHeap.Walkable ⟨4⟩ ∧
      shallowHeap.examine ⟨5⟩ = .ok (.ordinary (.new none)) ∧
      ∃ after, ((Command.setPrototype ⟨5⟩ (some ⟨4⟩) false).execute (.within 0)).on shallowHeap =
          some (.ok true, after) ∧
        after.examine ⟨5⟩ = .ok (.ordinary (.new (some ⟨4⟩))) ∧
        ((Command.get ⟨5⟩ .name .null).execute (.within 0)).on after =
          some (.error (.internal .chainTooDeep), after) ∧
        ((Command.has ⟨5⟩ .name).execute (.within 0)).on after =
          some (.error (.internal .chainTooDeep), after) ∧
        ((Command.enumerate ⟨5⟩ true true).execute (.within 0)).on after =
          some (.error (.internal .chainTooDeep), after) := by
  have chain : shallowHeap.Chain ⟨4⟩
      [.ordinary (.new (some objectPrototype)), .ordinary (.new none)] :=
    .link rfl rfl (.last rfl rfl)
  exact ⟨shallowHeap_eager, chain.walkable shallowHeap_eager (Nat.le_refl 2), rfl, _, rfl, rfl, rfl,
    rfl, rfl⟩

end Heap

end ObjectModel
