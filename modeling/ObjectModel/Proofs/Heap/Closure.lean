import ObjectModel.Proofs.Heap.Amendment
import ObjectModel.Proofs.Heap.Confinement
import ObjectModel.Proofs.Heap.OwnKeys
import ObjectModel.Proofs.Heap.Silence

/-!
# Views that get no new keys

A view on a collection that may get no new properties gets none, whatever code runs, as long as
nobody else lets the collection grow.  But a view on a map that has been fixed, not closed, gets
properties at the keys that denote no host keys, and still says that it may get none.
-/

namespace ObjectModel

namespace Object

/-- An object through which a collection may grow may get new properties. -/
def growth : Invariant where
  holds object := object.isGrowable = true → object.isExtensible = true
  changes := by
    intro object next extensible changes
    apply changes.keeps (fun object => object.isGrowable = true → object.isExtensible = true)
      extensible
    intro becomes growable
    cases becomes with
    | mutated done =>
      cases mutates_of_mutate done with
      | map => exact growable
      | sequence mutated =>
        obtain ⟨resizable, same⟩ := (HostSequence.edits_mutate mutated).flags
        exact same.trans (extensible (resizable.symm.trans growable))
      | _ => cases growable
    | linked =>
      cases object
      case map => exact growable
      case sequence => exact extensible growable
      all_goals cases growable
    | closed => cases object <;> cases growable
    | resized _ done =>
      cases object <;> cases done <;> first | exact extensible growable | cases growable
    | swapped done => cases object <;> cases done <;> exact extensible growable
  shared extensible same := by cases same <;> exact extensible

end Object

/-- A view that may get no new properties has got none, if its collection and its further properties
have been confined. -/
theorem HostView.keepsKeys {view next : HostView} {collection changed : Collection}
    (closed : (view.showing collection).isExtensible = false) (fixed : view.growable = false)
    (collections : collection.Confines changed) (base : view.base.Confines next.base) :
    (view.showing collection).KeepsKeys (next.showing changed) := by
  cases collections with
  | map keys => exact Object.keepsKeys_map fixed (.map keys) base
  | sequence length => exact Object.keepsKeys_sequence closed (.sequence length) base

theorem HostView.isExtensible_of_confines {view next : HostView} {collection changed : Collection}
    (closed : (view.showing collection).isExtensible = false) (fixed : next.growable = false)
    (collections : collection.Confines changed) (base : view.base.Confines next.base) :
    (next.showing changed).isExtensible = false := by
  cases collections with
  | map => exact fixed
  | sequence => exact base.closed closed

/-- The discipline of code that changes the object under a handle, and does nothing else. -/
def Discipline.handling (id : ObjectId) : Discipline where
  permits command := command.amended? = some id
  admits _ := True

namespace Heap

variable {heap after : Heap} {id : ObjectId} {source : CollectionId} {object : Object}

/-- Whether an object is under a handle, as a view on a collection. -/
structure Views (heap : Heap) (id : ObjectId) (source : CollectionId) (object : Object) : Prop where
  seen : heap.object? id = some object
  view : ∃ view, heap.slot? id = some (.host view) ∧ view.source = source

theorem Views.exists_showing (views : heap.Views id source object) :
    ∃ cell view collection, heap.cell? id = some cell ∧ cell.value = .host view ∧
      view.source = source ∧ heap.collection? source = some collection ∧
        object = view.showing collection := by
  obtain ⟨view, stored, here⟩ := views.view
  obtain ⟨cell, found, isView⟩ := Option.map_eq_some_iff.mp stored
  have viewed := (object?_of_found found).symm.trans views.seen
  rw [isView] at viewed
  obtain ⟨collection, shared, _⟩ := Option.map_eq_some_iff.mp viewed
  cases (view?_host shared).symm.trans viewed
  exact ⟨cell, view, collection, found, isView, here, here ▸ shared, rfl⟩

/-- Whether a view may get no new properties, and not let its collection grow. -/
structure Closes (heap : Heap) (id : ObjectId) (source : CollectionId) (object : Object) : Prop
    extends heap.Views id source object where
  closed : object.isExtensible = false
  fixed : object.isGrowable = false

theorem Upholds.closes (upholds : heap.Upholds Object.growth) (views : heap.Views id source object)
    (closed : object.isExtensible = false) : heap.Closes id source object where
  toViews := views
  closed := closed
  fixed := by
    refine Bool.eq_false_iff.mpr fun growable => ?_
    cases closed.symm.trans (upholds.holds views.seen growable)

theorem Closes.confines (closes : heap.Closes id source object) {reply : Reply}
    {command : Command reply} (target : command.amended? = some id) :
    command.confines source id heap = true := by
  obtain ⟨cell, view, collection, found, isView, _, _, rfl⟩ := closes.exists_showing
  have bars : heap.bars source id = true := by
    refine bars_eq_true_iff.mpr ⟨cell, found, ?_⟩
    have fixed := closes.fixed
    rw [HostView.isGrowable_showing] at fixed
    simp [isView, Representation.mayGrow, fixed]
  cases command <;> cases target <;> exact bars

theorem Confines.closes (confines : Confines source id heap after)
    (closes : heap.Closes id source object) :
    ∃ next, after.Closes id source next ∧ object.KeepsKeys next := by
  obtain ⟨cell, view, collection, found, isView, here, shared, rfl⟩ := closes.exists_showing
  have fixed := closes.fixed
  rw [HostView.isGrowable_showing] at fixed
  have tight : cell.value.mayGrow source = false := by
    simp [isView, Representation.mayGrow, fixed]
  obtain ⟨next, foundNext, kept⟩ := confines.cells id cell found tight
  obtain ⟨changed, sharedNext, collections⟩ := confines.collection collection shared
  obtain ⟨nextView, isViewNext, hereNext, base⟩ := kept.view rfl view isView here
  have fixedNext : nextView.growable = false :=
    Representation.growable_of_mayGrow (isViewNext ▸ kept.closed) hereNext
  have seen : after.object? id = some (nextView.showing changed) := by
    rw [object?_of_found foundNext, isViewNext]
    exact view?_host (hereNext ▸ sharedNext)
  refine ⟨_, ⟨⟨seen, nextView, ?_, hereNext⟩, ?_, ?_⟩, ?_⟩
  · rw [slot?, foundNext, Option.map_some, isViewNext]
  · exact HostView.isExtensible_of_confines closes.closed fixedNext collections base
  · exact (nextView.isGrowable_showing changed).trans fixedNext
  · exact HostView.keepsKeys closes.closed fixed collections base

section Runs

variable {depth : Nat}

theorem follows_confines (source : CollectionId) (id : ObjectId) (depth : Nat) :
    (Engine.guarded (Command.confines source id) depth).Follows (.within depth) .free
      (confining source id) :=
  Regime.follows_guarded (fun {_ _} follows {_} command _ _ steady passes =>
    carries_execute_confining follows command steady passes) depth

theorem Closes.of_on_runGuarded (closes : heap.Closes id source object) (steady : heap.Steady)
    {goal : Goal} {code : Code goal} {outcome : Except Fault goal.Result}
    (ran : (code.runGuarded (Command.confines source id) depth).on heap = some (outcome, after)) :
    (code.run depth).on heap = some (outcome, after) ∧
      ∃ next, after.Closes id source next ∧ object.KeepsKeys next := by
  obtain ⟨ranPlain, _, _, confines⟩ :=
    Regime.carries_runGuarded (fun {_ _} follows {_} command _ _ steady passes =>
      carries_execute_confining follows command steady passes)
      depth code.obeys_free heap steady outcome after ran
  exact ⟨ranPlain, confines.closes closes⟩

/-- A command that changes the view and runs no native code does the same behind the guard. -/
theorem Closes.on_executeGuarded (closes : heap.Closes id source object) (steady : heap.Steady)
    {reply : Reply} {command : Command reply} (target : command.amended? = some id)
    {outcome : Except Fault reply.Result}
    (ran : (command.execute (.within depth)).on heap = some (outcome, after))
    (quiet : after.log = heap.log) :
    (command.executeGuarded (Command.confines source id)
        (.guarded (Command.confines source id) depth)).on heap = some (outcome, after) ∧
      after.Steady ∧ ∃ next, after.Closes id source next := by
  have passes : command.confines source id heap = true := closes.confines target
  have guarded := on_execute_of_quiet (Command.carriesCode_of_amended? target) steady ran quiet
    (Engine.depth_guarded (Command.confines source id) depth)
  obtain ⟨_, steadyAfter, _, confines⟩ := carries_execute_confining
    (follows_confines source id depth) command steady passes outcome after guarded
  obtain ⟨next, closesNext, _⟩ := confines.closes closes
  refine ⟨?_, steadyAfter, next, closesNext⟩
  unfold Command.executeGuarded
  rw [Action.on_bind_ok (Action.on_get heap), if_pos passes, guarded]

theorem Closes.on_runGuarded : {goal : Goal} → {heap : Heap} → {object : Object} →
    heap.Closes id source object → (code : Code goal) → code.Obeys (.handling id) → heap.Steady →
      {outcome : Except Fault goal.Result} →
        (code.run depth).on heap = some (outcome, after) → after.log = heap.log →
          (code.runGuarded (Command.confines source id) depth).on heap = some (outcome, after)
  | _, _, _, _, .give _, _, _, _, ran, _ => ran
  | _, _, _, _, .build _, _, _, _, ran, _ => ran
  | _, _, _, _, .fail _, _, _, _, ran, _ => ran
  | _, heap, _, closes, .perform command next, obeys, steady, outcome, ran, quiet => by
    obtain ⟨commandObeys, nextObeys⟩ :
      command.Obeys (.handling id) ∧ ∀ outcome, (next outcome).Obeys (.handling id) := obeys
    have target : command.amended? = some id := commandObeys.permitted
    obtain ⟨⟨result, mid⟩, executed, rest⟩ :=
      Option.bind_eq_some_iff.mp ((Code.on_runWith_perform command next heap).symm.trans ran)
    obtain ⟨steadyMid, _, grows⟩ := keeps_execute_recording command heap steady _ _ executed
    have later := respects_within_recording (depth + 1) (next result) (next result).obeys_free mid
      steadyMid outcome after rest
    have quietMid := log_eq_of_between grows later.2.2 quiet
    obtain ⟨guarded, _, object, closesMid⟩ :=
      closes.on_executeGuarded steady target executed quietMid
    have onward := closesMid.on_runGuarded (next result) (nextObeys result) steadyMid rest
      (quiet.trans quietMid.symm)
    refine (Code.on_runWith_perform command next heap).trans ?_
    rw [guarded]
    exact onward

end Runs

/-- What holds of a view that may get no new properties, whatever code runs.

The guard lets all commands pass that change the view itself, now and afterwards. -/
structure Withholds (heap : Heap) (id : ObjectId) (source : CollectionId) (object : Object) :
    Prop where
  passes : ∀ {reply} {command : Command reply}, command.amended? = some id →
    command.confines source id heap = true
  keeps : ∀ {depth goal} {code : Code goal} {outcome after},
    (code.runGuarded (Command.confines source id) depth).on heap = some (outcome, after) →
      (code.run depth).on heap = some (outcome, after) ∧
        ∃ next, after.Closes id source next ∧ object.KeepsKeys next
  handled : ∀ {depth goal} {code : Code goal} {outcome after}, code.Obeys (.handling id) →
    (code.run depth).on heap = some (outcome, after) → after.log = heap.log →
      ∃ next, after.Closes id source next ∧ object.KeepsKeys next

theorem Closes.withholds (closes : heap.Closes id source object) (steady : heap.Steady) :
    heap.Withholds id source object where
  passes := closes.confines
  keeps ran := closes.of_on_runGuarded steady ran
  handled obeys ran quiet :=
    (closes.of_on_runGuarded steady (closes.on_runGuarded _ obeys steady ran quiet)).2

/-- A property can be added to a view at every key that leaks, though it may get no new properties.
But in new heaps, and in all heaps that runs of code lead to that builds no view through which a
collection may grow but which may get no properties, every view that may get no new properties gets
none at other keys, whatever code runs that leaves it to the view what keys the collection gets. -/
theorem closed_views_keep_keys (upholds : heap.Upholds Object.growth) :
    (∀ {object : Object} {key}, object.leaks key = true → ∀ value, ∃ next,
        (∀ strict, (Object.addOwn key value strict).on object = (.ok true, next)) ∧
          next.isExtensible = false ∧ next.getOwn key = some (.bare value)) ∧
      (∀ policy, (new policy).Upholds Object.growth) ∧
      (∀ {depth goal} {code : Code goal} {outcome after}, code.Obeys (.upholding Object.growth) →
        (code.run depth).on heap = some (outcome, after) → after.Upholds Object.growth) ∧
      ∀ {id source object}, heap.Views id source object → object.isExtensible = false →
        heap.Withholds id source object := by
  refine ⟨?_, ?_, ?_, ?_⟩
  · intro object key leaks value
    obtain ⟨next, added, fixed, found⟩ := Object.exists_add_of_leaks leaks value
    refine ⟨next, fun strict => ?_, fixed, found⟩
    rw [object.on_addOwn, added]
    rfl
  · exact fun policy => .new (fun _ => nofun) (fun _ => nofun) (fun _ => nofun)
  · exact fun obeys ran => upholds.run obeys ran
  · exact fun views closed => (upholds.closes views closed).withholds upholds.steady

/-- A new heap with one handle more, which is that of a view on an empty map from numbers.  The view
is fixed, but its further properties are not. -/
def withFixed : Heap := withView (@Collection.map .uint32 (.plain .boolean) .empty) false

theorem withFixed_upholds : withFixed.Upholds Object.growth := by
  have upholds : (new {}).Upholds Object.growth :=
    .new (fun _ => nofun) (fun _ => nofun) fun _ => nofun
  have obeys : (Representation.host ⟨⟨0⟩, false, .new none⟩).Obeys (.upholding Object.growth) := by
    refine Representation.obeys_iff.mpr ⟨?_, trivial⟩
    intro heap object viewed
    obtain ⟨collection, _, rfl⟩ := Option.map_eq_some_iff.mp viewed
    cases collection <;> nofun
  have withstands := withstands_upholding Object.growth
  have shared := withstands.shared upholds (@Collection.map .uint32 (.plain .boolean) .empty) []
  exact (withstands.allocated shared.1 obeys).1

/-- A fixed view refuses an entry and has got none; a name is added to it all the same. -/
theorem closed_views_keep_keys_fixed :
    ∃ object after next leaked,
      withFixed.Views ⟨4⟩ ⟨0⟩ object ∧ object.isExtensible = false ∧
        ((performing (.put ⟨4⟩ (.index 3) (.boolean true) false)).run 1).on withFixed =
          some (.ok false, after) ∧
        after.object? ⟨4⟩ = some next ∧ next.getOwn (.index 3) = none ∧
        (Object.addOwn .name (.boolean true) false).on object = (.ok true, leaked) ∧
        leaked.getOwn .name = some (.bare (.boolean true)) := by
  obtain ⟨adds, _, _, keeps⟩ := closed_views_keep_keys withFixed_upholds
  obtain ⟨object, views, closed, tight, absent, leaky⟩ : ∃ object,
      withFixed.Views ⟨4⟩ ⟨0⟩ object ∧ object.isExtensible = false ∧
        object.leaks (.index 3) = false ∧ object.getOwn (.index 3) = none ∧
        object.leaks .name = true := ⟨_, ⟨rfl, _, rfl, rfl⟩, rfl, rfl, rfl, rfl⟩
  obtain ⟨after, ran, quiet⟩ : ∃ after,
      ((performing (.put ⟨4⟩ (.index 3) (.boolean true) false)).run 1).on withFixed =
          some (.ok false, after) ∧ after.log = withFixed.log := ⟨_, rfl, rfl⟩
  have obeys : (performing (.put ⟨4⟩ (.index 3) (.boolean true) false)).Obeys (.handling ⟨4⟩) := by
    refine ⟨rfl, fun outcome => ?_⟩
    cases outcome <;> trivial
  obtain ⟨next, closes, kept⟩ := (keeps views closed).handled obeys ran quiet
  obtain ⟨leaked, added, _, found⟩ := adds leaky (.boolean true)
  exact ⟨object, after, next, leaked, views, closed, ran, closes.seen, kept.found _ tight absent,
    added false, found⟩

/-- A fixed view on a map from numbers gets a name, and says before and after it that it may get no
new properties. -/
theorem closed_views_gain_names :
    ∃ after,
      ((Command.isExtensible ⟨4⟩).execute (.within 1)).on withFixed =
          some (.ok false, withFixed) ∧
        ((Command.describe ⟨4⟩ .name).execute (.within 1)).on withFixed =
          some (.ok none, withFixed) ∧
        ((Command.put ⟨4⟩ .name (.boolean true) false).execute (.within 1)).on withFixed =
          some (.ok true, after) ∧
        ((Command.isExtensible ⟨4⟩).execute (.within 1)).on after = some (.ok false, after) ∧
        ((Command.describe ⟨4⟩ .name).execute (.within 1)).on after =
          some (.ok (some (.data (.boolean true) ⟨true, true, true⟩)), after) :=
  ⟨_, rfl, rfl, rfl, rfl, rfl⟩

end Heap

end ObjectModel
