import ObjectModel.Proofs.Heap.Walk
import ObjectModel.Proofs.Object.Isolation

/-!
# Reading along a prototype chain

What is read of an object is what the first holder of the key has: its value, or what its getter
gives when it is called with the receiver.  An object that lacks a key reads like its prototype, and
one that has been deprived of a property reads like its prototype again.
-/

namespace ObjectModel

namespace Heap

variable {heap after : Heap} {engine : Engine} {id next : ObjectId} {key : Key} {receiver : Value}
  {object : Object} {rest : List Object} {outcome : Except Fault (Option Slot)}

/-- What reading comes to for a receiver, given what the search for the property has come to. -/
def reading (heap : Heap) (engine : Engine) (receiver : Value) :
    Except Fault (Option Slot) → Option (Except Fault Value × Heap)
  | .error fault => some (.error fault, heap)
  | .ok slot =>
    match slot.map Slot.descriptor with
    | some (.data value _) => some (.ok value, heap)
    | some (.accessor (some getter) _ _) => heap.calling engine getter receiver []
    | some (.accessor none _ _) | none => some (.ok .undefined, heap)

/-- How a key is read at a handle: native code runs for the value only, and then it is the getter
alone. -/
structure Reads (heap : Heap) (engine : Engine) (key : Key) (receiver : Value) (id : ObjectId)
    (outcome : Except Fault (Option Slot)) : Prop where
  get : ((Command.get id key receiver).execute engine).on heap =
    heap.reading engine receiver outcome
  has : ((Command.has id key).execute engine).on heap = some (outcome.map Option.isSome, heap)

/-- Whether a key is read at two handles alike. -/
structure ReadsAlike (heap : Heap) (engine : Engine) (key : Key) (receiver : Value)
    (first second : ObjectId) : Prop where
  get : ((Command.get first key receiver).execute engine).on heap =
    ((Command.get second key receiver).execute engine).on heap
  has : ((Command.has first key).execute engine).on heap =
    ((Command.has second key).execute engine).on heap

/-- Whether a key means a property of an object.  `__proto__` means the prototype link where the
object has no property of that name. -/
def MeansProperty (heap : Heap) (id : ObjectId) (key : Key) : Prop :=
  key.isProto = true → ∃ object, heap.examine id = .ok object ∧ (object.getOwn key).isSome = true

theorem MeansProperty.of_plain (plain : key.isProto = false) (id : ObjectId) :
    heap.MeansProperty id key := by
  intro isProto
  rw [plain] at isProto
  cases isProto

namespace Eager

theorem on_resolve (eager : heap.Eager) (engine : Engine) (slot : Slot) (receiver : Value) :
    (resolve engine slot receiver).on heap = heap.reading engine receiver (.ok (some slot)) := by
  unfold resolve reading
  simp only [Option.map_some]
  cases slot.descriptor with
  | data value attributes => rfl
  | accessor get set attributes =>
    cases get with
    | none => rfl
    | some getter => exact eager.on_call engine getter receiver []

theorem on_has (eager : heap.Eager) (engine : Engine) (id : ObjectId) (key : Key) :
    ((Command.has id key).execute engine).on heap =
      some ((heap.foundWithin key heap.policy.maxPrototypeDepth id).map Option.isSome, heap) :=
  Action.on_bind_reading (eager.on_lookup engine id key) fun found _ =>
    Action.on_pure found.isSome heap

theorem on_not_hasOwn (eager : heap.Eager) (engine : Engine) (seen : heap.examine id = .ok object)
    (key : Key) :
    ((!·) <$> hasOwn engine id key).on heap = some (.ok !(object.getOwn key).isSome, heap) := by
  have inspected := eager.on_inspect engine id
  rw [seen] at inspected
  exact Action.on_bind_ok (Action.on_bind_ok inspected _) _

theorem on_lookup_bind (eager : heap.Eager) (engine : Engine) (id : ObjectId) (key : Key)
    {receiver : Value} {resolved : Option Slot → Action Value}
    (held : ∀ slot, resolved (some slot) = resolve engine slot receiver)
    (absent : resolved none = pure .undefined) :
    (lookup engine id key >>= resolved).on heap =
      heap.reading engine receiver (heap.foundWithin key heap.policy.maxPrototypeDepth id) := by
  rw [Action.on_bind, eager.on_lookup]
  cases heap.foundWithin key heap.policy.maxPrototypeDepth id with
  | error fault => rfl
  | ok found =>
    cases found with
    | none =>
      simp only [absent]
      rfl
    | some slot =>
      simp only [held]
      exact eager.on_resolve engine slot receiver

theorem on_get (eager : heap.Eager) (engine : Engine) (meant : heap.MeansProperty id key)
    (receiver : Value) :
    ((Command.get id key receiver).execute engine).on heap =
      heap.reading engine receiver (heap.foundWithin key heap.policy.maxPrototypeDepth id) := by
  change (getFrom engine id key receiver).on heap = _
  unfold getFrom
  split
  next isProto =>
    obtain ⟨object, seen, own⟩ := meant isProto
    have unlinked := eager.on_not_hasOwn engine seen key
    rw [own] at unlinked
    exact (Action.on_bind_ok unlinked _).trans
      (eager.on_lookup_bind engine id key (fun _ => rfl) rfl)
  next => exact eager.on_lookup_bind engine id key (fun _ => rfl) rfl

theorem on_get_link (eager : heap.Eager) (engine : Engine) (seen : heap.examine id = .ok object)
    (isProto : key.isProto = true) (absent : object.getOwn key = none) (receiver : Value) :
    ((Command.get id key receiver).execute engine).on heap =
      some (.ok ((object.prototype.map Value.object).getD .null), heap) := by
  have unowned := eager.on_not_hasOwn engine seen key
  rw [absent] at unowned
  have linked := eager.on_prototypeOf engine id
  rw [seen] at linked
  change (getFrom engine id key receiver).on heap = _
  unfold getFrom
  rw [if_pos isProto]
  exact (Action.on_bind_ok unowned _).trans (Action.on_bind_ok linked _)

theorem reads (eager : heap.Eager) (engine : Engine) (meant : heap.MeansProperty id key)
    (receiver : Value) (finds : heap.Finds key heap.policy.maxPrototypeDepth id outcome) :
    heap.Reads engine key receiver id outcome := by
  have found := finds.foundWithin_eq
  constructor
  · rw [eager.on_get engine meant receiver, found]
  · rw [eager.on_has engine id key, found]

/-- Two handles at which a key is found alike are read alike. -/
theorem readsAlike (eager : heap.Eager) (engine : Engine) (plain : key.isProto = false)
    (receiver : Value)
    (alike : heap.foundWithin key heap.policy.maxPrototypeDepth id =
      heap.foundWithin key heap.policy.maxPrototypeDepth next) :
    heap.ReadsAlike engine key receiver id next := by
  constructor
  · rw [eager.on_get engine (.of_plain plain id), eager.on_get engine (.of_plain plain next), alike]
  · rw [eager.on_has, eager.on_has, alike]

end Eager

theorem Chain.foundWithin_behind (chain : heap.Chain id (object :: rest)) {depth : Nat}
    (fits : (object :: rest).length ≤ depth) (linked : object.prototype = some next)
    (absent : object.getOwn key = none) :
    heap.foundWithin key depth id = heap.foundWithin key depth next := by
  have chainBehind : heap.Chain next rest := chain.behind linked fun _ _ => rfl
  rw [chain.foundWithin_eq fits, chainBehind.foundWithin_eq (Nat.le_of_succ_le fits),
    List.findSome?_cons, absent]

section Deleting

variable {strict : Bool}

theorem cell?_exchange (native : heap.native? id = some object)
    {cell : ObjectCell Representation} (found : heap.cell? id = some cell)
    (free : cell.borrow = .free) (final : Object) :
    (heap.exchange id final).cell? id = some (.new (represent cell.value final)) := by
  rw [exchange_eq native found, cell?_setCell found, if_pos rfl, free]
  rfl

theorem alters_exchange (eager : heap.Eager) (native : heap.native? id = some object)
    {cell : ObjectCell Representation} (found : heap.cell? id = some cell)
    (free : cell.borrow = .free) {final : Object} (kind : final.kind = object.kind) :
    heap.Alters (heap.exchange id final) id final := by
  have replaced := replaced_exchange native kind
  have stored := cell?_exchange native found free final
  have viewed := view?_of_native replaced.object stored
  refine ⟨?_, (of_grasp (grasp_eq stored viewed)).2.2, ?_, replaced.policy⟩
  · intro other own foundOwn
    by_cases here : other = id
    · rw [here, stored] at foundOwn
      cases foundOwn
      exact isLazy_of_view? viewed
    · rw [replaced.others other here] at foundOwn
      exact eager other own foundOwn
  · intro other different
    exact examine_congr (replaced.others other different) replaced.collections

/-- A deletion that is reported as done takes the property from the object and does nothing else. -/
theorem Eager.exists_alters_of_delete (eager : heap.Eager) (native : heap.native? id = some object)
    (ran : ((Command.delete id key strict).execute engine).on heap = some (.ok true, after)) :
    ∃ final, heap.Alters after id final ∧ final.prototype = object.prototype ∧
      final.getOwn key = none := by
  rw [Command.execute_delete] at ran
  have deleted : (judge engine id (·.mutate (.delete key))).on heap =
      some (.ok .accepted, after) := on_eq_accepted_of_on_report ran
  have deletion := object.deletion (kind_ne_host native) key
  obtain ⟨verdict, final, done⟩ :
      ∃ verdict final, object.delete key = (verdict, final) := ⟨_, _, rfl⟩
  have mutated : object.mutate (.delete key) = .ok (verdict, final) := congrArg Except.ok done
  rw [done] at deletion
  obtain ⟨cell, found, _⟩ := exists_cell native
  by_cases free : cell.borrow = .free
  · rw [on_judge_free native found free, mutated] at deleted
    obtain ⟨accepted, rfl⟩ := Prod.mk.inj (Option.some.inj deleted)
    exact ⟨final, alters_exchange eager native found free (Object.kind_mutate mutated),
      Object.prototype_mutate mutated, deletion.absent (Except.ok.inj accepted)⟩
  · obtain ⟨fault, failed⟩ := on_judge_held native found free engine (·.mutate (.delete key))
    cases deleted.symm.trans failed

end Deleting

/-- In a heap without lazy objects, whatever its prototype links are, a key is read at the first
holder that the links lead to, if there is one among the objects that may be visited.  A value is
read as it is, and a getter is called once, with the receiver.  Without a holder the key reads as
`undefined` if the links end in time, and else reading fails.

So an object on a chain that fits the limit reads like its prototype where it lacks a property, and
also after a property of its own has been deleted. -/
theorem Eager.reads_first_holder (eager : heap.Eager) (engine : Engine)
    (meant : heap.MeansProperty id key) (receiver : Value) :
    (∃ outcome,
      (∀ other, heap.Finds key heap.policy.maxPrototypeDepth id other ↔ other = outcome) ∧
      (∀ fault, outcome = .error fault → ∃ why, fault = .internal why) ∧
      heap.Reads engine key receiver id outcome) ∧
    ∀ {object rest next}, heap.Chain id (object :: rest) →
      (object :: rest).length ≤ heap.policy.maxPrototypeDepth → object.prototype = some next →
        (object.getOwn key = none → heap.ReadsAlike engine key receiver id next) ∧
        ∀ {strict after}, heap.native? id = some object → key.isProto = false →
          ((Command.delete id key strict).execute engine).on heap = some (.ok true, after) →
            after.ReadsAlike engine key receiver id next ∧
              ∀ outcome, after.Finds key after.policy.maxPrototypeDepth next outcome ↔
                heap.Finds key heap.policy.maxPrototypeDepth next outcome := by
  constructor
  · refine ⟨heap.foundWithin key heap.policy.maxPrototypeDepth id, ?_, ?_, ?_⟩
    · intro other
      rw [finds_iff, eq_comm]
    · intro fault failed
      exact (finds_iff.mpr failed).exists_of_error
    · exact eager.reads engine meant receiver (finds_iff.mpr rfl)
  · intro object rest next chain fits linked
    have seen := chain.examine_eq
    constructor
    · intro absent
      have plain : key.isProto = false := by
        refine Bool.eq_false_iff.mpr fun isProto => ?_
        obtain ⟨same, seenToo, own⟩ := meant isProto
        cases seen.symm.trans seenToo
        rw [absent] at own
        cases own
      exact eager.readsAlike engine plain receiver (chain.foundWithin_behind fits linked absent)
    · intro strict after native plain ran
      obtain ⟨final, alters, sameLink, absent⟩ := eager.exists_alters_of_delete native ran
      have linkedAfter : final.prototype = some next := sameLink.trans linked
      have chainBehind : heap.Chain next rest := chain.behind linked fun _ _ => rfl
      have chainBehindAfter : after.Chain next rest := chain.behind linked alters.others
      have chainAfter : after.Chain id (final :: rest) :=
        .link alters.seen linkedAfter chainBehindAfter
      rw [← alters.policy] at fits
      constructor
      · exact alters.eager.readsAlike engine plain receiver
          (chainAfter.foundWithin_behind fits linkedAfter absent)
      · intro outcome
        have fitsBehind := Nat.le_of_succ_le fits
        rw [finds_iff, finds_iff, chainBehindAfter.foundWithin_eq fitsBehind, ← alters.policy,
          chainBehind.foundWithin_eq fitsBehind]

/-- An object whose name is a function of whoever is asked for it. -/
def elder : OrdinaryObject :=
  { OrdinaryObject.new none with
    properties :=
      .insert .empty .name (.described (.ofAccessor (some (.object ⟨2⟩)) none true true)) }

/-- An object with a name of its own that inherits from it. -/
def heir : OrdinaryObject :=
  { OrdinaryObject.new (some ⟨1⟩) with properties := .insert .empty .name (.bare .null) }

/-- A heap that holds the two, a function that answers with its receiver, and an object that is its
own prototype. -/
def lineage : Heap where
  cells :=
    #[.new (.ordinary heir), .new (.ordinary elder),
      .new (.function "self" (fun this _ => .give this) (.new none)),
      .new (.ordinary (.new (some ⟨3⟩)))]
  policy := { maxPrototypeDepth := 2 }
  collections := #[]
  names := []
  log := []

theorem lineage_eager : lineage.Eager := by
  rintro ⟨_ | _ | _ | _ | index⟩ cell found
  · cases found
    rfl
  · cases found
    rfl
  · cases found
    rfl
  · cases found
    rfl
  · cases found

/-- Without a name of its own, the heir is asked for itself; round the circle nobody is found. -/
theorem reads_first_holder_lineage :
    lineage.Eager ∧ Key.name.isProto = false ∧ lineage.native? ⟨0⟩ = some (.ordinary heir) ∧
      lineage.Chain ⟨0⟩ [.ordinary heir, .ordinary elder] ∧
      (∃ after, ((Command.delete ⟨0⟩ .name true).execute (.within 1)).on lineage =
          some (.ok true, after) ∧
        ((Command.get ⟨0⟩ .name .null).execute (.within 1)).on after =
          some (.ok .null, after.record (.call "self" .null []))) ∧
      ((Command.get ⟨3⟩ .name .null).execute (.within 1)).on lineage =
        some (.error (.internal .chainTooDeep), lineage) := by
  have plain : Key.name.isProto = false := by decide +kernel
  have meant (id : ObjectId) : lineage.MeansProperty id .name := .of_plain plain id
  have native : lineage.native? ⟨0⟩ = some (.ordinary heir) := rfl
  have chain : lineage.Chain ⟨0⟩ [.ordinary heir, .ordinary elder] := .link rfl rfl (.last rfl rfl)
  obtain ⟨after, deleted, ofElder⟩ : ∃ after,
      ((Command.delete ⟨0⟩ .name true).execute (.within 1)).on lineage = some (.ok true, after) ∧
      ((Command.get ⟨1⟩ .name .null).execute (.within 1)).on after =
        some (.ok .null, after.record (.call "self" .null [])) := ⟨_, rfl, rfl⟩
  obtain ⟨_, inherits⟩ := lineage_eager.reads_first_holder (.within 1) (meant ⟨0⟩) .null
  obtain ⟨alike, _⟩ := (inherits chain (Nat.le_refl 2) rfl).2 native plain deleted
  obtain ⟨⟨outcome, finds, _, reads⟩, _⟩ :=
    lineage_eager.reads_first_holder (.within 1) (meant ⟨3⟩) .null
  have round : lineage.Finds .name 2 ⟨3⟩ (.error (.internal .chainTooDeep)) :=
    .tooDeep (.step rfl (.step rfl (.stay _)))
      (fun object member => by
        rcases List.mem_cons.mp member with rfl | member
        · rfl
        · rw [List.mem_singleton.mp member]
          rfl)
      rfl
  cases (finds _).mp round
  exact ⟨lineage_eager, plain, native, chain, ⟨after, deleted, alike.get.trans ofElder⟩, reads.get⟩

end Heap

end ObjectModel
