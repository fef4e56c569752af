import ObjectModel.Proofs.Heap.Assignment
import ObjectModel.Proofs.Heap.Sound

/-!
# Enumeration and lookup

An enumeration walks along the prototype chain like a lookup, but to the end, and lists what it has
not seen before.  So it lists the keys that a lookup finds, in the order in which their first
holders stand on the chain, and whether a key counts as enumerable is decided by its first holder
alone.
-/

namespace ObjectModel

namespace Heap

section NewKeys

variable (all : Bool) (seen : List Key)

theorem newKeys_append (first second : List (Key × Bool)) :
    newKeys all seen (first ++ second) =
      let (listed, between) := newKeys all seen first
      let (later, last) := newKeys all between second
      (listed ++ later, last) := by
  induction first generalizing seen with
  | nil => rfl
  | cons entry rest inductionHypothesis =>
    obtain ⟨key, enumerable⟩ := entry
    simp only [List.cons_append, newKeys, inductionHypothesis]
    split
    next => rfl
    next => split <;> rfl

theorem newKeys_true (entries : List (Key × Bool)) :
    (newKeys true seen entries).1 =
      ((entries.map Prod.fst).filter fun key => key ∉ seen).eraseDups := by
  induction entries generalizing seen with
  | nil => rfl
  | cons entry rest inductionHypothesis =>
    obtain ⟨key, enumerable⟩ := entry
    simp only [newKeys, List.map_cons]
    split
    next old =>
      rw [inductionHypothesis, List.filter_cons_of_neg (by simpa using old)]
    next new =>
      have rest : ((rest.map Prod.fst).filter fun other => other ∉ key :: seen) =
          ((rest.map Prod.fst).filter fun other => other ∉ seen).filter fun other =>
            !other == key := by
        rw [List.filter_filter]
        apply List.filter_congr
        intro other _
        simp only [List.mem_cons, not_or, Bool.decide_and, decide_not]
        rfl
      simp only [inductionHypothesis, Bool.or_true, if_true, rest]
      rw [List.filter_cons_of_pos (by simpa using new), List.eraseDups_cons]

theorem mem_newKeys_true {entries : List (Key × Bool)} {key : Key} :
    key ∈ (newKeys true seen entries).1 ↔ key ∈ entries.map Prod.fst ∧ key ∉ seen := by
  rw [newKeys_true, List.mem_eraseDups, List.mem_filter, decide_eq_true_iff]

theorem nodup_newKeys_true (entries : List (Key × Bool)) :
    (newKeys true seen entries).1.Nodup := by
  induction entries generalizing seen with
  | nil => exact .nil
  | cons entry rest inductionHypothesis =>
    obtain ⟨key, enumerable⟩ := entry
    simp only [newKeys]
    split
    next => exact inductionHypothesis seen
    next =>
      simp only [Bool.or_true, if_true]
      refine List.nodup_cons.mpr ⟨fun member => ?_, inductionHypothesis (key :: seen)⟩
      exact ((mem_newKeys_true (key :: seen)).mp member).2 List.mem_cons_self

/-- A key counts as enumerable if its first entry says so; a later one does not matter. -/
theorem newKeys_false (entries : List (Key × Bool)) :
    (newKeys false seen entries).1 =
      (newKeys true seen entries).1.filter fun key => entries.lookup key = some true := by
  induction entries generalizing seen with
  | nil => rfl
  | cons entry rest inductionHypothesis =>
    obtain ⟨key, enumerable⟩ := entry
    have skipped {keys : List Key} (apart : ∀ other ∈ keys, other ≠ key) :
        (keys.filter fun other => ((key, enumerable) :: rest).lookup other = some true) =
          keys.filter fun other => rest.lookup other = some true := by
      apply List.filter_congr
      intro other member
      have different : (other == key) = false := beq_eq_false_iff_ne.mpr (apart other member)
      rw [List.lookup_cons, different]
    simp only [newKeys]
    split
    next old =>
      rw [inductionHypothesis, skipped]
      intro other member same
      exact ((mem_newKeys_true seen).mp member).2 (same ▸ old)
    next new =>
      have apart : ∀ other ∈ (newKeys true (key :: seen) rest).1, other ≠ key := by
        intro other member same
        exact ((mem_newKeys_true (key :: seen)).mp member).2 (same ▸ List.mem_cons_self)
      have here : ((key, enumerable) :: rest).lookup key = some enumerable := List.lookup_cons_self
      simp only [inductionHypothesis, Bool.or_true, Bool.or_false, if_true, List.filter_cons, here,
        skipped apart]
      cases enumerable <;> rfl

end NewKeys

/-- The objects that an enumeration visits, of those on a prototype chain. -/
def visited (recursive : Bool) (objects : List Object) : List Object :=
  if recursive then objects else objects.take 1

variable {heap : Heap} {id : ObjectId} {objects : List Object}

/-- On a chain that fits the depth, all objects are visited one after another. -/
theorem Chain.on_enumerateWithin (chain : heap.Chain id objects) (eager : heap.Eager)
    {depth : Nat} (fits : objects.length ≤ depth) (engine : Engine) (all recursive : Bool)
    (seen : List Key) :
    (enumerateWithin engine all recursive depth seen id).on heap =
      some (.ok (newKeys all seen ((visited recursive objects).flatMap Object.ownKeys)).1,
        heap) := by
  induction chain generalizing depth seen with
  | @last id object examined ends =>
    obtain _ | depth := depth
    · cases fits
    · have inspected := eager.on_inspect engine id
      rw [examined] at inspected
      have holders : visited recursive [object] = [object] := by cases recursive <;> rfl
      unfold enumerateWithin
      rw [Action.on_bind_ok inspected, holders]
      simp only [ends, ite_self, List.flatMap_cons, List.flatMap_nil, List.append_nil]
      rfl
  | @link id next object rest examined linked chain inductionHypothesis =>
    obtain _ | depth := depth
    · cases fits
    · have inspected := eager.on_inspect engine id
      rw [examined] at inspected
      unfold enumerateWithin
      rw [Action.on_bind_ok inspected]
      cases recursive with
      | false =>
        simp only [visited, Bool.false_eq_true, if_false, List.take_succ_cons, List.take_zero,
          List.flatMap_cons, List.flatMap_nil, List.append_nil]
        rfl
      | true =>
        have later := inductionHypothesis (Nat.le_of_succ_le_succ fits)
          (newKeys all seen object.ownKeys).2
        simp only [visited, if_true, linked, List.flatMap_cons, newKeys_append] at later ⊢
        rw [Action.on_bind_ok later]
        rfl

theorem lookup_listings (sound : ∀ object ∈ objects, object.Sound)
    (notMaps : ∀ object ∈ objects, object.isMap = false) (key : Key) :
    (objects.flatMap Object.ownKeys).lookup key =
      (objects.findSome? fun object => object.getOwn key).map Slot.isEnumerable := by
  induction objects with
  | nil => rfl
  | cons object rest inductionHypothesis =>
    have here := (sound object List.mem_cons_self).lookup_ownKeys
      (notMaps object List.mem_cons_self) key
    have later := inductionHypothesis
      (fun other member => sound other (List.mem_cons_of_mem _ member))
      (fun other member => notMaps other (List.mem_cons_of_mem _ member))
    rw [List.flatMap_cons, List.lookup_append, here, later, List.findSome?_cons]
    cases object.getOwn key <;> rfl

/-- What an enumeration of a chain has to do with lookups along it. -/
structure Enumerates (heap : Heap) (engine : Engine) (id : ObjectId) (recursive : Bool)
    (holders : List Object) (keys : List Key) : Prop where
  all : ((Command.enumerate id true recursive).execute engine).on heap = some (.ok keys, heap)
  enumerable : ((Command.enumerate id false recursive).execute engine).on heap =
    some (.ok (keys.filter fun key =>
      (holders.findSome? fun object => object.getOwn key).any Slot.isEnumerable), heap)
  nodup : keys.Nodup
  found : ∀ key,
    ((if recursive then Command.has id key else .hasOwn id key).execute engine).on heap =
      some (.ok (decide (key ∈ keys)), heap)
  order : keys = (holders.flatMap fun object => object.ownKeys.map Prod.fst).eraseDups

theorem Chain.on_enumerate (chain : heap.Chain id objects) (eager : heap.Eager)
    (fits : objects.length ≤ heap.policy.maxPrototypeDepth) (engine : Engine)
    (all recursive : Bool) :
    ((Command.enumerate id all recursive).execute engine).on heap =
      some (.ok (newKeys all [] ((visited recursive objects).flatMap Object.ownKeys)).1,
        heap) := by
  have policy := Action.on_bind_ok (Action.on_get heap) fun current =>
    enumerateWithin engine all recursive current.policy.maxPrototypeDepth [] id
  exact policy.trans (chain.on_enumerateWithin eager fits engine all recursive [])

theorem Chain.on_holds (chain : heap.Chain id objects) (eager : heap.Eager)
    (fits : objects.length ≤ heap.policy.maxPrototypeDepth) (engine : Engine) (recursive : Bool)
    (key : Key) :
    ((if recursive then Command.has id key else .hasOwn id key).execute engine).on heap =
      some (.ok ((visited recursive objects).findSome? fun object => object.getOwn key).isSome,
        heap) := by
  cases recursive with
  | true =>
    have looked := eager.on_lookup engine id key
    rw [chain.foundWithin_eq fits key] at looked
    exact Action.on_bind_ok looked fun found => pure found.isSome
  | false =>
    have inspected := eager.on_inspect engine id
    obtain ⟨object, rest, rfl⟩ : ∃ object rest, objects = object :: rest := by
      cases chain <;> exact ⟨_, _, rfl⟩
    rw [chain.examine_eq] at inspected
    have own : (visited false (object :: rest)).findSome? (fun object => object.getOwn key) =
        object.getOwn key := by
      show [object].findSome? _ = _
      rw [List.findSome?_cons]
      cases object.getOwn key <;> rfl
    rw [own]
    exact Action.on_bind_ok inspected fun object => pure (object.getOwn key).isSome

/-- A chain of sound objects is enumerated in agreement with lookups, but for views on maps. -/
theorem Chain.enumerates (chain : heap.Chain id objects) (eager : heap.Eager)
    (fits : objects.length ≤ heap.policy.maxPrototypeDepth)
    (sound : ∀ object ∈ objects, object.Sound)
    (notMaps : ∀ object ∈ objects, object.isMap = false) (engine : Engine) (recursive : Bool) :
    ∃ keys, heap.Enumerates engine id recursive (visited recursive objects) keys := by
  have among : ∀ object ∈ visited recursive objects, object ∈ objects := by
    intro object member
    cases recursive with
    | true => exact member
    | false => exact List.mem_of_mem_take member
  have looked := lookup_listings (fun object member => sound object (among object member))
    (fun object member => notMaps object (among object member))
  generalize entries_eq : (visited recursive objects).flatMap Object.ownKeys = entries at looked
  refine ⟨(newKeys true [] entries).1, ?_, ?_, nodup_newKeys_true [] entries, ?_, ?_⟩
  · rw [chain.on_enumerate eager fits, entries_eq]
  · rw [chain.on_enumerate eager fits, entries_eq, newKeys_false]
    simp only [looked]
    congr 3
    apply List.filter_congr
    intro key _
    cases (visited recursive objects).findSome? fun object => object.getOwn key with
    | none => rfl
    | some slot => simp
  · intro key
    have listed : (entries.lookup key).isSome = decide (key ∈ (newKeys true [] entries).1) := by
      rw [Bool.eq_iff_iff, decide_eq_true_iff, mem_newKeys_true, List.lookup_isSome_iff]
      simp
    rw [chain.on_holds eager fits, ← listed, looked, Option.isSome_map]
  · have fresh (keys : List Key) : (keys.filter fun key => key ∉ ([] : List Key)) = keys :=
      List.filter_eq_self.mpr fun _ _ => rfl
    rw [newKeys_true, ← entries_eq, List.map_flatMap, fresh]

theorem Chain.exists_object {object : Object} (chain : heap.Chain id objects)
    (member : object ∈ objects) : ∃ holder, heap.object? holder = some object := by
  induction chain with
  | last examined ends =>
    cases List.mem_singleton.mp member
    exact ⟨_, object?_of_examine examined⟩
  | link examined linked chain inductionHypothesis =>
    rcases List.mem_cons.mp member with rfl | later
    · exact ⟨_, object?_of_examine examined⟩
    · exact inductionHypothesis later

/-- Whether the chains of a heap are enumerated in agreement with lookups, if they fit the depth and
no object on them shows a map. -/
def EnumerationAgrees (heap : Heap) : Prop :=
  ∀ id objects, heap.Chain id objects → objects.length ≤ heap.policy.maxPrototypeDepth →
    (∀ object ∈ objects, object.isMap = false) → ∀ engine recursive,
      ∃ keys, heap.Enumerates engine id recursive (visited recursive objects) keys

theorem Upholds.enumerationAgrees (upholds : heap.Upholds Object.soundness)
    (eager : heap.Eager) : heap.EnumerationAgrees := by
  intro id objects chain fits notMaps engine recursive
  refine chain.enumerates eager fits ?_ notMaps engine recursive
  intro object member
  obtain ⟨holder, seen⟩ := chain.exists_object member
  exact upholds.holds seen

/-- In new heaps, and in all heaps that runs of code lead to that builds sound objects, enumeration
agrees with lookup as long as no object is lazy. -/
theorem enumeration_agrees_with_lookup :
    (∀ policy, (new policy).Upholds Object.soundness) ∧
      ∀ {heap : Heap}, heap.Upholds Object.soundness →
        (heap.Eager → heap.EnumerationAgrees) ∧
        ∀ {depth goal} {code : Code goal} {outcome after},
          code.Obeys (.upholding Object.soundness) →
            (code.run depth).on heap = some (outcome, after) →
              after.Upholds Object.soundness ∧ (after.Eager → after.EnumerationAgrees) := by
  refine ⟨upholds_soundness_new, fun upholds => ⟨upholds.enumerationAgrees, fun obeys ran => ?_⟩⟩
  have upholdsAfter := upholds.run obeys ran
  exact ⟨upholdsAfter, upholdsAfter.enumerationAgrees⟩

/-- Code that shadows a property of the prototype of objects by one that is not enumerable. -/
def shadowing : Code (.reply .flag) :=
  .ask (.put objectPrototype .name .null true) fun _ =>
    .ask (.put objectPrototype sizeKey .null true) fun _ =>
      .ask (.define arrayPrototype .name { value := some .null } true) .give

theorem shadowing_obeys : shadowing.Obeys (.upholding Object.soundness) := by
  refine ⟨trivial, fun put => ?_⟩
  cases put with
  | error fault => trivial
  | ok done =>
    refine ⟨trivial, fun put => ?_⟩
    cases put with
    | error fault => trivial
    | ok done => exact ⟨trivial, fun defined => by cases defined <;> trivial⟩

/-- The shadowed property is listed once, at its first holder, and does not count as enumerable. -/
theorem enumeration_agrees_shadowing :
    ∃ after objects keys, (shadowing.run 1).on (new {}) = some (.ok true, after) ∧
      after.Chain arrayPrototype objects ∧
      after.Enumerates (.within 1) arrayPrototype true objects keys ∧
      keys = [.length, .name, sizeKey] ∧
      ((Command.enumerate arrayPrototype false true).execute (.within 1)).on after =
        some (.ok [sizeKey], after) := by
  obtain ⟨after, array, object, ran, chain, eager, fits, notMaps, listed, enumerable⟩ :
      ∃ after array object, (shadowing.run 1).on (new {}) = some (.ok true, after) ∧
        after.Chain arrayPrototype [array, object] ∧ after.Eager ∧
        2 ≤ after.policy.maxPrototypeDepth ∧
        (∀ holder ∈ [array, object], holder.isMap = false) ∧
        ([array, object].flatMap fun holder => holder.ownKeys.map Prod.fst).eraseDups =
          [.length, .name, sizeKey] ∧
        ([.length, .name, sizeKey].filter fun key =>
          ([array, object].findSome? fun holder => holder.getOwn key).any Slot.isEnumerable) =
          [sizeKey] := by
    refine ⟨_, _, _, rfl, .link rfl rfl (.last rfl rfl), ?_, by decide, ?_, by decide, by decide⟩
    · rintro ⟨_ | _ | _ | _ | index⟩ cell found <;> cases found <;> rfl
    · rintro _ (_ | ⟨_, _ | ⟨_, ⟨⟩⟩⟩) <;> rfl
  obtain ⟨upholdsNew, agrees⟩ := enumeration_agrees_with_lookup
  have agreesAfter := ((agrees (upholdsNew {})).2 shadowing_obeys ran).2 eager
  obtain ⟨keys, enumerates⟩ := agreesAfter _ _ chain fits notMaps (.within 1) true
  have keys_eq := enumerates.order.trans listed
  refine ⟨after, _, keys, ran, chain, enumerates, keys_eq, ?_⟩
  have enumerated := enumerates.enumerable
  rw [keys_eq] at enumerated
  exact enumerated.trans (congrArg (fun keys => some (Except.ok keys, after)) enumerable)

end Heap

end ObjectModel
