import ObjectModel.Proofs.Heap.Guarded
import ObjectModel.Proofs.Heap.Rooted

/-!
# Prototype chains stay acyclic

Native code is grounded if every object that it allocates links to one that exists.  Then from every
handle the links lead to an object without prototype, whatever the code does to the objects through
the protocol.
-/

namespace ObjectModel

namespace Command

/-- Whether a command is grounded: it allocates only what the heap grounds, replaces neither objects
nor, without a look, links, and holds no cells. -/
def grounded (heap : Heap) : {reply : Reply} → Command reply → Bool
  | _, .allocate representation => heap.grounds representation
  | _, .relink .. => false
  | _, .replace .. => false
  | _, .hold .. => false
  | _, _ => true

end Command

namespace Heap

open Regime

variable {watched plain : Engine}

/-- A change that keeps the kind and the link of an object keeps a heap rooted. -/
theorem carries_amend_linked {α : Type} (id : ObjectId)
    {change : Object → Except Fault (α × Object)}
    (linked : ∀ {object result next}, change object = .ok (result, next) →
      next.kind = object.kind ∧ next.prototype = object.prototype) :
    rooting.Carries (judge watched id change) (judge plain id change) := by
  intro heap rooted
  apply tolerates_rooting.carries_judge rooted
  intro cell object grasped result next changed
  obtain ⟨kind, link⟩ := linked changed
  exact ⟨rooted.store_linked grasped kind link, policy_store _ _ _ _⟩

theorem carries_mutate (id : ObjectId) (mutation : OwnMutation) :
    rooting.Carries (judge watched id (·.mutate mutation)) (judge plain id (·.mutate mutation)) :=
  carries_amend_linked id fun mutated =>
    ⟨Object.kind_mutate mutated, Object.prototype_mutate mutated⟩

theorem carries_resize (id : ObjectId) (length : Nat) :
    rooting.Carries (judge watched id (Object.resize length))
      (judge plain id (Object.resize length)) := by
  apply carries_amend_linked
  intro object result next resized
  cases object
  case array inner =>
    cases resized
    exact ⟨rfl, congrArg OrdinaryObject.prototype (inner.base_setLength length)⟩
  all_goals
    cases resized
    exact ⟨rfl, rfl⟩

theorem carries_swapStored (id : ObjectId) (a b : UInt32) :
    rooting.Carries (judge watched id (exchangeStored a b))
      (judge plain id (exchangeStored a b)) := by
  apply carries_amend_linked
  intro object result next swapped
  cases object
  all_goals
    cases swapped
    exact ⟨rfl, rfl⟩

theorem carries_grounded (follows : watched.Follows plain .free rooting) {reply : Reply}
    (command : Command reply) (heap : Heap) (rooted : heap.Rooted)
    (grounded : command.grounded heap = true) :
    rooting.CarriesFrom heap (command.execute watched) (command.execute plain) := by
  have direct (bypasses : command.bypasses = false) (codeless : command.carriesCode = false) :=
    tolerates_rooting.carries_execute follows command bypasses codeless heap rooted
  cases command
  case allocate representation => exact .of_on rfl rfl ⟨rooted.push grounded, rfl⟩
  case swap id a b =>
    have serves := tolerates_rooting.serves follows
    exact serves.carries_swap (carries_swapStored id a b) (tolerates_rooting.carries_put follows id)
      heap rooted
  case mutate id mutation strict =>
    rw [Command.execute_mutate, Command.execute_mutate]
    exact (carries_mutate id mutation).report strict heap rooted
  case resize id length strict => exact (carries_resize id length).resize strict heap rooted
  case relink => cases grounded
  case replace => cases grounded
  case hold => cases grounded
  all_goals exact direct rfl rfl

theorem Rooted.execute_setPrototype {heap : Heap} (rooted : heap.Rooted) (engine : Engine)
    {id : ObjectId} {object : Object} {link : Option ObjectId} {path : List ObjectId}
    (examined : heap.examine id = .ok object) (extensible : object.isExtensible = true)
    (ancestry : heap.Ancestry link path) (fits : path.length ≤ heap.policy.maxPrototypeDepth)
    (strict : Bool) :
    (id ∈ path → ((Command.setPrototype id link strict).execute engine).on heap =
      some (reject strict .cyclicPrototype, heap)) ∧
    (id ∉ path → ∃ after,
      ((Command.setPrototype id link strict).execute engine).on heap = some (.ok true, after) ∧
        after.link? id = some link ∧
          ∀ other, other ≠ id → after.cell? other = heap.cell? other) := by
  rw [Command.execute_setPrototype, on_report]
  obtain ⟨refused, accepted⟩ := rooted.on_setPrototype engine examined extensible ancestry fits
  constructor
  · intro member
    rw [refused member]
    rfl
  · intro apart
    obtain ⟨after, ran, linked, others⟩ := accepted apart
    rw [ran]
    exact ⟨after, rfl, linked, others⟩

/-- Grounded code that starts on a new heap ends like any run of it.  In the heap that it leaves,
the links from every handle lead to an object without prototype, over no more objects than there
are. An extensible object refuses a link if and only if the links from there lead back to it, and
then nothing changes; any other link is set, and no other object changes. -/
theorem grounded_chains_end {policy : Policy} {depth : Nat} {goal : Goal} {code : Code goal}
    {outcome : Except Fault goal.Result} {heap : Heap}
    (ran : (code.runGuarded Command.grounded depth).on (new policy) = some (outcome, heap)) :
    (code.run depth).on (new policy) = some (outcome, heap) ∧
      (∀ id, id.index < heap.size →
        ∃ path, heap.Ancestry (some id) path ∧ path.length ≤ heap.size) ∧
      ∀ engine id object link path strict, heap.examine id = .ok object →
        object.isExtensible = true → heap.Ancestry link path →
        path.length ≤ policy.maxPrototypeDepth →
        (id ∈ path → ((Command.setPrototype id link strict).execute engine).on heap =
          some (reject strict .cyclicPrototype, heap)) ∧
        (id ∉ path → ∃ after,
          ((Command.setPrototype id link strict).execute engine).on heap =
              some (.ok true, after) ∧
            after.link? id = some link ∧
              ∀ other, other ≠ id → after.cell? other = heap.cell? other) := by
  obtain ⟨ranPlain, rooted, samePolicy⟩ :=
    carries_runGuarded (fun {_ _} follows {_} command _ => carries_grounded follows command) depth
      code.obeys_free (new policy) (Rooted.new policy) outcome heap ran
  refine ⟨ranPlain, ?_, ?_⟩
  · intro id inside
    obtain ⟨path, ancestry⟩ := rooted.rooted id inside
    exact ⟨path, ancestry, ancestry.length_le⟩
  · intro engine id object link path strict examined extensible ancestry fits
    have allowed : (new policy).policy.maxPrototypeDepth = policy.maxPrototypeDepth := rfl
    rw [← allowed, ← samePolicy] at fits
    exact rooted.execute_setPrototype engine examined extensible ancestry fits strict

/-- Code that allocates a child of the object at the end of the chains, and tries to make it the
parent as well. -/
def adoption : Code (.reply .flag) :=
  .ask (.allocate (.ordinary (.new (some objectPrototype)))) fun child =>
    .ask (.setPrototype objectPrototype (some child) false) fun done => .give done

def adoptive : Heap :=
  { Heap.new {} with
    cells := (Heap.new {}).cells.push (.new (.ordinary (.new (some objectPrototype)))) }

theorem grounded_chains_end_adoption :
    (adoption.runGuarded Command.grounded 1).on (new {}) = some (.ok false, adoptive) ∧
      (∃ path, adoptive.Ancestry (some ⟨4⟩) path ∧ path.length ≤ 5) ∧
      ((Command.setPrototype objectPrototype (some ⟨4⟩) true).execute (.within 0)).on adoptive =
        some (.error (.attributeViolation .cyclicPrototype), adoptive) := by
  have ran : (adoption.runGuarded Command.grounded 1).on (new {}) = some (.ok false, adoptive) :=
    rfl
  have ancestry : adoptive.Ancestry (some ⟨4⟩) [⟨4⟩, objectPrototype] :=
    .link rfl (.link rfl .ends)
  obtain ⟨_, chains, links⟩ := grounded_chains_end ran
  have refused := (links (.within 0) objectPrototype (.ordinary (.new none)) _ _ true rfl rfl
    ancestry (by decide)).1 (by decide)
  exact ⟨ran, chains ⟨4⟩ (by decide), refused⟩

end Heap

end ObjectModel
