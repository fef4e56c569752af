import ObjectModel.Heap.Run
import ObjectModel.Proofs.Heap.Construction
import ObjectModel.Proofs.Heap.Rooted

/-!
# The search for cycles beside lazy objects

Before a prototype link is set, the links from the new prototype are searched for the object itself.
The search constructs the lazy objects that it meets, and their factories may set links that it has
passed already.  If the links that it has passed still stand when it is over, no cycle is closed;
if one of them does not, there may be one.
-/

namespace ObjectModel

namespace Heap

variable {heap after walked : Heap} {engine : Engine} {id next : ObjectId}
  {cursor prototype : Option ObjectId} {path : List ObjectId} {strict : Bool}

/-- Whether the prototype of a handle is another one. -/
def Links (heap : Heap) (id next : ObjectId) : Prop := heap.link? id = some (some next)

/-- Whether prototype links lead from no handle back to it. -/
def Acyclic (heap : Heap) : Prop := ∀ id, ¬ Relation.TransGen heap.Links id id

namespace Ancestry

theorem mem_of_links (ancestry : heap.Ancestry cursor path) (member : id ∈ path)
    (links : heap.Links id next) : next ∈ path := by
  induction ancestry with
  | ends => cases member
  | @link first link rest linked ancestryRest inductionHypothesis =>
    rcases List.mem_cons.mp member with rfl | later
    · unfold Links at links
      rw [links] at linked
      cases linked
      cases ancestryRest with
      | link => exact List.mem_cons_of_mem _ List.mem_cons_self
    · exact List.mem_cons_of_mem _ (inductionHypothesis later)

theorem mem_of_transGen (ancestry : heap.Ancestry (some id) (id :: path))
    (leads : Relation.TransGen heap.Links id next) : next ∈ path := by
  cases ancestry with
  | @link _ link _ linked rest =>
    induction leads with
    | single links =>
      unfold Links at links
      rw [linked] at links
      cases links
      cases rest with
      | link => exact List.mem_cons_self
    | tail _ links inductionHypothesis => exact rest.mem_of_links inductionHypothesis links

theorem not_transGen (ancestry : heap.Ancestry (some id) path) :
    ¬ Relation.TransGen heap.Links id id := by
  intro leads
  cases ancestry with
  | link linked rest =>
    have whole := Ancestry.link linked rest
    exact whole.not_mem (whole.mem_of_transGen leads)

end Ancestry

/-- The search for `id` along prototype links, with the handles that it passes and the links that it
reads there. -/
def search (engine : Engine) (id : ObjectId) :
    (depth : Nat) → (cursor : Option ObjectId) → Action (Bool × List (ObjectId × Option ObjectId))
  | _, none => return (false, [])
  | depth, some next => do
    if next = id then return (true, [])
    match depth with
    | 0 => Action.failWith .chainTooDeep
    | depth + 1 =>
      let link ← prototypeOf engine next
      let (found, passed) ← search engine id depth link
      return (found, (next, link) :: passed)

theorem leadsTo_eq_search (engine : Engine) (id : ObjectId) (depth : Nat)
    (cursor : Option ObjectId) :
    leadsTo engine id depth cursor = Prod.fst <$> search engine id depth cursor := by
  induction depth generalizing cursor with
  | zero =>
    cases cursor with
    | none => rfl
    | some next =>
      unfold leadsTo search
      split <;> rfl
  | succ depth inductionHypothesis =>
    cases cursor with
    | none => rfl
    | some next =>
      unfold leadsTo search
      split
      next => rfl
      next =>
        rw [map_bind]
        apply bind_congr
        intro link
        rw [inductionHypothesis, map_bind]
        rfl

/-- A search that ends without having met `id` has passed the ancestry of the cursor, if the links
that it has read stand. -/
theorem ancestry_of_search {depth : Nat} {passed : List (ObjectId × Option ObjectId)}
    (searched : (search engine id depth cursor).on heap = some (.ok (false, passed), walked))
    (standing : ∀ next link, (next, link) ∈ passed → after.link? next = some link) :
    after.Ancestry cursor (passed.map Prod.fst) ∧ id ∉ passed.map Prod.fst := by
  induction depth generalizing heap cursor passed with
  | zero =>
    cases cursor with
    | none =>
      cases searched
      exact ⟨.ends, List.not_mem_nil⟩
    | some next =>
      unfold search at searched
      split at searched <;> cases searched
  | succ depth inductionHypothesis =>
    cases cursor with
    | none =>
      cases searched
      exact ⟨.ends, List.not_mem_nil⟩
    | some next =>
      unfold search at searched
      split at searched
      next => cases searched
      next apart =>
        obtain ⟨link, mid, _, searched⟩ := Action.exists_of_on_bind_ok searched
        obtain ⟨⟨found, rest⟩, last, onward, searched⟩ := Action.exists_of_on_bind_ok searched
        cases searched
        obtain ⟨ancestry, absent⟩ := inductionHypothesis onward fun other own member =>
          standing other own (List.mem_cons_of_mem _ member)
        refine ⟨.link (standing next link List.mem_cons_self) ancestry, ?_⟩
        rw [List.map_cons, List.mem_cons, not_or]
        exact ⟨fun same => apart same.symm, absent⟩

/-- What is read before a prototype link is set: the handles that the search passes, and their
links. -/
def passedLinks (engine : Engine) (id : ObjectId) (prototype : Option ObjectId) :
    Action (List (ObjectId × Option ObjectId)) := do
  discard (inspect engine id)
  return (← search engine id (← MonadState.get).policy.maxPrototypeDepth prototype).2

/-- A link that is accepted is there already, or it is set after a search that has not met the
object. -/
theorem cases_of_setPrototype
    (set : ((Command.setPrototype id prototype strict).execute engine).on heap =
      some (.ok true, after)) :
    (∃ object, (inspect engine id).on heap = some (.ok object, after) ∧
      object.prototype = prototype) ∨
    ∃ depth seen passed walked,
      (search engine id depth prototype).on seen = some (.ok (false, passed), walked) ∧
        (passedLinks engine id prototype).on heap = some (.ok passed, walked) ∧
          after.link? id = some prototype := by
  rw [Command.execute_setPrototype] at set
  have accepted := on_eq_accepted_of_on_report set
  unfold judgePrototype at accepted
  obtain ⟨object, seen, looking, accepted⟩ := Action.exists_of_on_bind_ok accepted
  split at accepted
  next same =>
    cases accepted
    exact .inl ⟨object, looking, same⟩
  next =>
    split at accepted
    next => cases accepted
    next =>
      rw [Action.on_bind_ok (Action.on_get seen), leadsTo_eq_search] at accepted
      obtain ⟨led, walked, leading, accepted⟩ := Action.exists_of_on_bind_ok accepted
      obtain ⟨⟨found, passed⟩, last, searching, ended⟩ := Action.exists_of_on_bind_ok leading
      cases ended
      cases found with
      | true => cases accepted
      | false =>
        obtain ⟨_, last, amending, ended⟩ := Action.exists_of_on_bind_ok accepted
        cases ended
        obtain ⟨mid, cell, old, next, _, grasped, changed, rfl⟩ := exists_of_on_judge amending
        cases changed
        refine .inr ⟨_, seen, passed, walked, searching, ?_, ?_⟩
        · have looked : (discard (inspect engine id)).on heap = some (.ok ⟨⟩, seen) := by
            rw [Action.on_discard, looking]
            rfl
          unfold passedLinks
          rw [Action.on_bind_ok looked, Action.on_bind_ok (Action.on_get seen),
            Action.on_bind_ok searching]
          rfl
        · obtain ⟨found, viewed, _⟩ := of_grasp grasped
          have represented := link_represent viewed (old.kind_setPrototype prototype)
          rw [link?_store found, if_pos rfl, represented.1, Object.prototype_setPrototype]

/-- A prototype link that is accepted closes no cycle, whatever lazy objects do when the search
constructs them, if the links that it has passed stand in the end.  A link that an object is
constructed with is not searched. -/
theorem not_transGen_of_setPrototype (acyclic : heap.Acyclic)
    (assigned : heap.Ready id ∨ ∀ object seen,
      (inspect engine id).on heap = some (.ok object, seen) → object.prototype ≠ prototype)
    (set : ((Command.setPrototype id prototype strict).execute engine).on heap =
      some (.ok true, after))
    (standing : ∀ passed walked,
      (passedLinks engine id prototype).on heap = some (.ok passed, walked) →
        ∀ next link, (next, link) ∈ passed → after.link? next = some link) :
    ¬ Relation.TransGen after.Links id id := by
  rcases cases_of_setPrototype set with
    ⟨object, looking, same⟩ | ⟨depth, seen, passed, walked, searching, reading, linked⟩
  · rcases assigned with ready | different
    · rw [ready.on_inspect] at looking
      obtain ⟨_, rfl⟩ := Prod.mk.inj (Option.some.inj looking)
      exact acyclic id
    · exact absurd same (different object after looking)
  · obtain ⟨ancestry, _⟩ := ancestry_of_search searching (standing passed walked reading)
    exact (Ancestry.link linked ancestry).not_transGen

theorem exists_link?_of_transGen (leads : Relation.TransGen heap.Links id next) :
    ∃ link, heap.link? id = some link := by
  induction leads with
  | single links => exact ⟨_, links⟩
  | tail _ _ inductionHypothesis => exact inductionHypothesis

theorem acyclic_of_ancestry (ancestries : ∀ id link, heap.link? id = some link →
    ∃ path, heap.Ancestry (some id) path) : heap.Acyclic := by
  intro id leads
  obtain ⟨link, linked⟩ := exists_link?_of_transGen leads
  obtain ⟨path, ancestry⟩ := ancestries id link linked
  exact ancestry.not_transGen leads

/-- A heap with a chain that ends at a lazy object, which links a handle to another object when it
is constructed. -/
def meddlingHeap (meddled : ObjectId) : Heap :=
  { new {} with
    cells := (new {}).cells ++
      #[.new (.ordinary (.new none)), .new (.ordinary (.new (some ⟨6⟩))),
        .new (.pending (.ask (.setPrototype meddled (some ⟨4⟩) true) fun _ =>
          .build (.ordinary (.new none)))),
        .new (.ordinary (.new none))] }

theorem acyclic_meddlingHeap (meddled : ObjectId) : (meddlingHeap meddled).Acyclic := by
  have root : (meddlingHeap meddled).Ancestry (some objectPrototype) [objectPrototype] :=
    .link rfl .ends
  apply acyclic_of_ancestry
  rintro ⟨_ | _ | _ | _ | _ | _ | _ | _ | index⟩ link linked
  · exact ⟨_, root⟩
  · exact ⟨_, .link rfl root⟩
  · exact ⟨_, .link rfl root⟩
  · exact ⟨_, .link rfl root⟩
  · exact ⟨_, .link rfl .ends⟩
  · exact ⟨_, .link rfl (.link rfl .ends)⟩
  · exact ⟨_, .link rfl .ends⟩
  · exact ⟨_, .link rfl .ends⟩
  · cases linked

/-- If the lazy end of the chain meddles with nothing that the search has passed, all is well. -/
theorem not_transGen_meddlingHeap :
    ∃ after,
      ((Command.setPrototype ⟨4⟩ (some ⟨5⟩) true).execute (.within 2)).on (meddlingHeap ⟨7⟩) =
        some (.ok true, after) ∧
      after.link? ⟨7⟩ = some (some ⟨4⟩) ∧ ¬ Relation.TransGen after.Links ⟨4⟩ ⟨4⟩ := by
  obtain ⟨after, set, first, last, meddled⟩ : ∃ after,
      ((Command.setPrototype ⟨4⟩ (some ⟨5⟩) true).execute (.within 2)).on (meddlingHeap ⟨7⟩) =
        some (.ok true, after) ∧
      after.link? ⟨5⟩ = some (some ⟨6⟩) ∧ after.link? ⟨6⟩ = some none ∧
        after.link? ⟨7⟩ = some (some ⟨4⟩) := ⟨_, rfl, rfl, rfl, rfl⟩
  refine ⟨after, set, meddled,
    not_transGen_of_setPrototype (acyclic_meddlingHeap ⟨7⟩) (.inl ?_) set ?_⟩
  · intro cell found
    cases found
    rfl
  · intro passed walked reading next link member
    cases reading
    rcases List.mem_cons.mp member with same | member
    · cases same
      exact first
    · cases List.mem_singleton.mp member
      exact last

/-- If it links the first handle that the search has passed to the object itself, the link that the
search was made for closes a cycle. -/
theorem cycle_meddlingHeap :
    (meddlingHeap ⟨5⟩).Acyclic ∧
      ∃ after,
        ((Command.setPrototype ⟨4⟩ (some ⟨5⟩) true).execute (.within 2)).on (meddlingHeap ⟨5⟩) =
          some (.ok true, after) ∧
        Relation.TransGen after.Links ⟨4⟩ ⟨4⟩ :=
  ⟨acyclic_meddlingHeap ⟨5⟩, _, rfl, .tail (.single rfl) rfl⟩

end Heap

end ObjectModel
