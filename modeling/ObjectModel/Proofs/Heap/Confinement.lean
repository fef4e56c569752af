import ObjectModel.Proofs.Heap.Invariant
import ObjectModel.Proofs.Host.Closure

/-!
# Runs in which a collection gets no new keys

A collection gets new keys from its host, and through the views that may let it grow.  A guard keeps
these from it: it lets a command pass if that is no edit of the collection and does not change a
view that may let it grow.  Whatever code runs, what passes the guard leaves the collection without
new keys, and a view that is not to let it grow as it was meant.
-/

namespace ObjectModel

/-- Whether a collection may grow through a representation, or through what may be constructed in
its place. -/
def Representation.mayGrow (source : CollectionId) : Representation → Bool
  | .host view => view.growable && view.source = source
  | .pending _ | .spent => true
  | .ordinary _ | .array _ | .string _ | .function .. => false

/-- Whether a representation through which a collection may not grow gives way to another one, and
if it is to be kept and is a view on the collection, to a view that confines its further
properties. -/
structure Representation.Confines (source : CollectionId) (kept : Prop)
    (old new : Representation) : Prop where
  closed : new.mayGrow source = false
  view : kept → ∀ view, old = .host view → view.source = source →
    ∃ next, new = .host next ∧ next.source = source ∧ view.base.Confines next.base

namespace Representation

variable {source : CollectionId} {kept : Prop} {representation : Representation}

theorem Confines.refl (closed : representation.mayGrow source = false) :
    representation.Confines source kept representation where
  closed := closed
  view _ view isView here := ⟨view, isView, here, .refl _⟩

theorem Confines.trans {first second third : Representation}
    (early : first.Confines source kept second) (late : second.Confines source kept third) :
    first.Confines source kept third where
  closed := late.closed
  view keeps view isView here := by
    obtain ⟨between, isViewBetween, hereBetween, confines⟩ := early.view keeps view isView here
    obtain ⟨next, isViewNext, hereNext, confinesNext⟩ :=
      late.view keeps between isViewBetween hereBetween
    exact ⟨next, isViewNext, hereNext, confines.trans confinesNext⟩

end Representation

theorem Representation.growable_of_mayGrow {source : CollectionId} {view : HostView}
    (closed : (Representation.host view).mayGrow source = false) (here : view.source = source) :
    view.growable = false := by
  simpa [mayGrow, here] using closed

theorem HostView.isGrowable_showing (view : HostView) (collection : Collection) :
    (view.showing collection).isGrowable = view.growable := by
  cases collection <;> rfl

theorem HostView.shown?_showing (view : HostView) (collection : Collection) :
    Heap.shown? (view.showing collection) = some collection := by
  cases collection <;> rfl

theorem Heap.represent_of_shown {view : HostView} {object : Object} {collection : Collection}
    (shown : Heap.shown? object = some collection) :
    Heap.represent (.host view) object =
      .host { view with growable := object.isGrowable, base := object.base } := by
  cases object <;> first | rfl | cases shown

namespace Object

variable {object next : Object} {discipline : Discipline}

/-- Whatever a command makes of a view that may not let its collection grow, it is still one, and
the collection has got no new keys. -/
theorem Becomes.confines (becomes : object.Becomes discipline next)
    (closed : object.isGrowable = false) {collection : Collection}
    (shown : Heap.shown? object = some collection) :
    ∃ changed, Heap.shown? next = some changed ∧ collection.Confines changed ∧
      next.isGrowable = false ∧ object.base.Confines next.base := by
  cases becomes with
  | mutated done =>
    cases mutates_of_mutate done with
    | map mutated =>
      cases shown
      obtain ⟨closedNext, confines⟩ := HostMap.confines_mutate closed mutated
      exact ⟨_, rfl, confines, closedNext, (HostMap.rebases_mutate mutated).confines⟩
    | sequence mutated =>
      cases shown
      obtain ⟨closedNext, confines⟩ := (HostSequence.edits_mutate mutated).confines closed
      exact ⟨_, rfl, confines, closedNext, (HostSequence.rebases_named mutated).confines⟩
    | _ => cases shown
  | linked prototype =>
    cases object <;> cases shown <;>
      exact ⟨_, rfl, .refl _, closed, OrdinaryObject.confines_setPrototype _ _⟩
  | closed =>
    cases object <;> cases shown <;>
      exact ⟨_, rfl, .refl _, rfl, OrdinaryObject.confines_preventExtensions _⟩
  | resized _ done =>
    cases object <;> cases shown <;> cases done <;> exact ⟨_, rfl, .refl _, closed, .refl _⟩
  | swapped done =>
    cases object <;> cases shown <;> cases done <;> exact ⟨_, rfl, .refl _, closed, .refl _⟩

end Object

theorem Representation.confines_represent {source : CollectionId} {kept : Prop} {heap : Heap}
    {old : Representation} {object next : Object} {discipline : Discipline}
    (viewed : heap.view? old = some object) (closed : old.mayGrow source = false)
    (becomes : object.Becomes discipline next) :
    old.Confines source kept (Heap.represent old next) := by
  cases old
  case host view =>
    obtain ⟨collection, found, _⟩ := Option.map_eq_some_iff.mp viewed
    cases (Heap.view?_host found).symm.trans viewed
    by_cases here : view.source = source
    · have closedObject : (view.showing collection).isGrowable = false :=
        (view.isGrowable_showing collection).trans (growable_of_mayGrow closed here)
      obtain ⟨changed, shown, _, closedNext, base⟩ :=
        becomes.confines closedObject (view.shown?_showing collection)
      have baseView : view.base.Confines next.base := by
        cases collection <;> exact base
      rw [Heap.represent_of_shown shown]
      refine ⟨Bool.and_eq_false_imp.mpr fun growable => ?_, ?_⟩
      · cases closedNext.symm.trans growable
      · rintro _ _ ⟨⟩ _
        exact ⟨_, rfl, here, baseView⟩
    · constructor
      case closed => cases next <;> simp [Heap.represent, mayGrow, here]
      case view =>
        rintro _ _ ⟨⟩ elsewhere
        exact absurd elsewhere here
  case pending => cases closed
  case spent => cases closed
  all_goals
    constructor
    case closed => cases next <;> rfl
    case view => rintro _ _ ⟨⟩

namespace Heap

variable {heap before after : Heap} {source : CollectionId} {id other : ObjectId}
  {cell : ObjectCell Representation} {object next : Object}

/-- Whether there is an object under a handle through which a collection may not grow. -/
def bars (heap : Heap) (source : CollectionId) (id : ObjectId) : Bool :=
  (heap.cell? id).any fun cell => !cell.value.mayGrow source

theorem bars_eq_true_iff :
    heap.bars source id = true ↔
      ∃ cell, heap.cell? id = some cell ∧ cell.value.mayGrow source = false := by
  simp [bars, Option.any_eq_true]

/-- Whether no command has let a collection grow: it has got no new keys, what may not let it grow
still may not, and a view on it that is under a handle still is one. -/
structure Confines (source : CollectionId) (id : ObjectId) (before after : Heap) : Prop where
  collection : ∀ collection, before.collection? source = some collection →
    ∃ next, after.collection? source = some next ∧ collection.Confines next
  cells : ∀ other cell, before.cell? other = some cell → cell.value.mayGrow source = false →
    ∃ next, after.cell? other = some next ∧
      cell.value.Confines source (other = id) next.value

end Heap

/-- Whether a command neither edits a collection as its host, nor puts something into the place of a
handle or that may let the collection grow into any place, nor changes an object that may. -/
def Command.confines (source : CollectionId) (id : ObjectId) (heap : Heap) :
    {reply : Reply} → Command reply → Bool
  | _, .edit name _ => heap.named? name != some source
  | _, .replace other representation => other != id && !representation.mayGrow source
  | _, command => command.amended?.all (heap.bars source)

theorem Command.bars_of_confines {source : CollectionId} {id other : ObjectId} {heap : Heap}
    {reply : Reply} {command : Command reply} (passes : command.confines source id heap = true)
    (target : command.amended? = some other) : heap.bars source other = true := by
  cases command <;> cases target <;> exact passes

namespace Heap

variable {heap before after : Heap} {source : CollectionId} {id other : ObjectId}
  {cell : ObjectCell Representation} {object next : Object}

namespace Confines

theorem of_collections (same : after.collections = before.collections)
    (cells : ∀ other cell, before.cell? other = some cell → cell.value.mayGrow source = false →
      ∃ next, after.cell? other = some next ∧ cell.value.Confines source (other = id) next.value) :
    Confines source id before after where
  collection collection found := by
    refine ⟨collection, ?_, .refl _⟩
    unfold collection? at found ⊢
    rwa [same]
  cells := cells

theorem of_cells (same : ∀ other, before.cell? other = after.cell? other)
    (collection : ∀ collection, before.collection? source = some collection →
      ∃ next, after.collection? source = some next ∧ collection.Confines next) :
    Confines source id before after where
  collection := collection
  cells other cell found closed := ⟨cell, (same other).symm.trans found, .refl closed⟩

theorem refl (source : CollectionId) (id : ObjectId) (heap : Heap) : Confines source id heap heap :=
  .of_collections rfl fun _ cell found closed => ⟨cell, found, .refl closed⟩

theorem trans {first second third : Heap} (early : Confines source id first second)
    (late : Confines source id second third) : Confines source id first third where
  collection collection found := by
    obtain ⟨between, foundBetween, confines⟩ := early.collection collection found
    obtain ⟨next, foundNext, confinesNext⟩ := late.collection between foundBetween
    exact ⟨next, foundNext, confines.trans confinesNext⟩
  cells other cell found closed := by
    obtain ⟨between, foundBetween, confines⟩ := early.cells other cell found closed
    obtain ⟨next, foundNext, confinesNext⟩ := late.cells other between foundBetween confines.closed
    exact ⟨next, foundNext, confines.trans confinesNext⟩

theorem bars (confines : Confines source id before after)
    (bars : before.bars source other = true) : after.bars source other = true := by
  obtain ⟨cell, found, closed⟩ := bars_eq_true_iff.mp bars
  obtain ⟨next, foundNext, confinesNext⟩ := confines.cells other cell found closed
  exact bars_eq_true_iff.mpr ⟨next, foundNext, confinesNext.closed⟩

theorem record (source : CollectionId) (id : ObjectId) (heap : Heap) (event : Event) :
    Confines source id heap (heap.record event) :=
  .of_collections rfl fun _ cell found closed => ⟨cell, found, .refl closed⟩

theorem push (source : CollectionId) (id : ObjectId) (heap : Heap)
    (representation : Representation) :
    Confines source id heap { heap with cells := heap.cells.push (.new representation) } := by
  apply of_collections
  case same => rfl
  case cells =>
    intro other cell found closed
    refine ⟨cell, ?_, .refl closed⟩
    rw [cell?_push, if_neg (Nat.ne_of_lt (Array.getElem?_eq_some_iff.mp found).1), found]

theorem share (source : CollectionId) (id : ObjectId) (heap : Heap) (collection : Collection)
    (names : List (String × CollectionId)) :
    Confines source id heap
      { heap with collections := heap.collections.push collection, names } := by
  apply of_cells
  case same => exact fun _ => rfl
  case collection =>
    exact fun shared found => ⟨shared, collection?_share found collection names, .refl _⟩

theorem setCollection {elsewhere : CollectionId} {collection : Collection}
    (found : heap.collection? elsewhere = some collection) (apart : source ≠ elsewhere)
    (edited : Collection) : Confines source id heap (heap.setCollection elsewhere edited) := by
  apply of_cells
  case same => exact fun _ => rfl
  case collection =>
    intro own foundOwn
    refine ⟨own, ?_, .refl _⟩
    rw [collection?_setCollection found, if_neg apart, foundOwn]

theorem setCell (found : heap.cell? other = some cell) {changed : ObjectCell Representation}
    (confines : cell.value.mayGrow source = false →
      cell.value.Confines source (other = id) changed.value) :
    Confines source id heap (heap.setCell other changed) := by
  apply of_collections
  case same => rfl
  case cells =>
    intro apart own foundOwn closed
    rw [cell?_setCell found]
    split
    next here =>
      rw [here, found] at foundOwn
      cases foundOwn
      rw [here]
      exact ⟨changed, rfl, confines closed⟩
    next => exact ⟨own, foundOwn, .refl closed⟩

theorem entered {factory : Code .representation}
    (pending : heap.cell? other = some (.new (.pending factory))) :
    Confines source id heap (heap.entered other) :=
  (setCell pending fun closed => nomatch closed).trans (.record source id _ _)

/-- A command that changes what may not let a collection grow does not let it grow. -/
theorem store {discipline : Discipline} (found : heap.cell? other = some cell)
    (viewed : heap.view? cell.value = some object) (closed : cell.value.mayGrow source = false)
    (becomes : object.Becomes discipline next) :
    Confines source id heap (heap.store other cell next) := by
  have represented (kept : Prop) : cell.value.Confines source kept (represent cell.value next) :=
    Representation.confines_represent viewed closed becomes
  constructor
  case collection =>
    intro collection foundCollection
    unfold Heap.store
    simp only
    split
    next view changed isView shown =>
      rw [isView] at viewed closed
      obtain ⟨own, foundOwn, _⟩ := Option.map_eq_some_iff.mp viewed
      cases (view?_host foundOwn).symm.trans viewed
      have stored := collection?_setCollection foundOwn changed source
      by_cases here : source = view.source
      · subst here
        cases foundCollection.symm.trans foundOwn
        have closedObject : (view.showing collection).isGrowable = false :=
          (view.isGrowable_showing collection).trans
            (Representation.growable_of_mayGrow closed rfl)
        obtain ⟨next, shownNext, confines, _⟩ :=
          becomes.confines closedObject (view.shown?_showing collection)
        cases shown.symm.trans shownNext
        exact ⟨changed, stored.trans (if_pos rfl), confines⟩
      · exact ⟨collection, stored.trans ((if_neg here).trans foundCollection), .refl _⟩
    next => exact ⟨collection, foundCollection, .refl _⟩
  case cells =>
    intro apart own foundOwn closedOwn
    rw [cell?_store found]
    split
    next here =>
      rw [here, found] at foundOwn
      cases foundOwn
      exact ⟨_, rfl, represented _⟩
    next => exact ⟨own, foundOwn, .refl closedOwn⟩

end Confines

/-- The regime in which a collection gets no new keys. -/
def confining (source : CollectionId) (id : ObjectId) : Regime where
  safe := Steady
  leadsTo before after := before.Settling after ∧ Confines source id before after
  refl heap := ⟨steadying.refl heap, .refl source id heap⟩
  trans early late := ⟨steadying.trans early.1 late.1, early.2.trans late.2⟩

theorem confining_reaches (settles : steadying.Reaches before after)
    (confines : Confines source id before after) : (confining source id).Reaches before after :=
  ⟨settles.1, settles.2, confines⟩

theorem confining_bars (leads : (confining source id).leadsTo before after)
    (bars : before.bars source other = true) : after.bars source other = true :=
  leads.2.bars bars

theorem enters_confining (source : CollectionId) (id : ObjectId) :
    (confining source id).Enters .free where
  steady steady := steady
  runs _ _ _ _ := (Representation.obeys_iff.mp (Representation.obeys_free _)).2
  spent leads _ spent := (leads.1.2 _ spent).1
  recorded steady event unentered :=
    confining_reaches (bears_steadying.recorded steady event unentered)
      (.record source id _ event)
  borrowed steady _ _ found eager borrow :=
    confining_reaches (bears_steadying.borrowed steady found eager borrow)
      (.setCell found fun closed => .refl closed)
  entered steady _ _ pending := steady.entered pending
  failed steady other _ pending _ _ _ ran reached := by
    have failed := bears_steadying.failed steady pending ran ⟨reached.1, reached.2.1⟩
    exact confining_reaches failed ((Confines.entered pending).trans reached.2.2)
  built steady other _ pending _ _ after ran obeys reached := by
    have built := bears_steadying.built steady pending ran obeys ⟨reached.1, reached.2.1⟩
    have spent : after.cell? other = some (.new .spent) := by
      refine (reached.2.1.2 other ?_).1
      rw [cell?_entered pending, if_pos rfl]
    have confined : Confines source id _ after := (Confines.entered pending).trans reached.2.2
    exact confining_reaches built (confined.trans (.setCell spent fun closed => nomatch closed))

section Commands

variable {watched : Engine} {depth : Nat}
  (follows : watched.Follows (.within depth) .free (confining source id))

include follows

theorem amendsAt_confining (other : ObjectId) :
    ((confining source id).along fun heap => heap.bars source other = true).simulation.AmendsAt
      .free watched (fun _ => .within depth) other where
  toServes :=
    (((enters_confining source id).serves follows).along confining_bars).simulated
  amend := by
    rintro α change changes heap ⟨steady, bars⟩
    apply Regime.CarriesFrom.along confining_bars bars
    apply (enters_confining source id).carries_judge follows steady
    intro mid reached cell object grasped result next changed
    obtain ⟨found, viewed, _⟩ := of_grasp grasped
    obtain ⟨own, foundOwn, closed⟩ := bars_eq_true_iff.mp (reached.2.2.bars bars)
    cases found.symm.trans foundOwn
    exact confining_reaches (bears_steadying.reaches_store reached.1 grasped next)
      (.store found viewed closed (changes changed))

theorem carries_execute_confining {reply : Reply} (command : Command reply) (steady : heap.Steady)
    (passes : command.confines source id heap = true) :
    (confining source id).CarriesFrom heap (command.execute watched)
      (command.execute (.within depth)) := by
  have serves := (enters_confining source id).serves follows
  cases target : command.amended? with
  | some other =>
    have bars := Command.bars_of_confines passes target
    have carries := (amendsAt_confining follows other).execute target trivial
    exact (carries heap ⟨steady, bars⟩).of_along
  | none =>
    cases command
    case allocate representation =>
      have allocated := bears_steadying.allocated steady representation
      exact .of_on rfl rfl (confining_reaches allocated (.push source id heap representation))
    case size => exact (Regime.Keeps.get.carries.map Heap.size) heap steady
    case replace other representation =>
      apply (enters_confining source id).carries_replace follows other ?_ heap steady
      intro heap steady cell found eager
      have passed : other ≠ id ∧ representation.mayGrow source = false := by
        simpa [Command.confines] using passes
      refine confining_reaches ⟨steady.setCell found fun _ => rfl, .setCell found eager _⟩ ?_
      exact .setCell found fun _ => ⟨passed.2, fun here => absurd here passed.1⟩
    case share collection name =>
      have shared : (confining source id).Keeps (Heap.share collection name) := by
        apply Regime.Keeps.share
        intro heap steady names
        exact confining_reaches (bears_steadying.withstands.shared steady collection names)
          (.share source id heap collection names)
      exact shared.carries heap steady
    case edit name edit =>
      have spared : heap.named? name ≠ some source := by
        simpa [Command.confines] using passes
      apply Regime.CarriesFrom.edit steady
      intro elsewhere collection named found
      have apart : source ≠ elsewhere := by
        rintro rfl
        exact spared named
      exact confining_reaches (bears_steadying.withstands.edited steady found edit)
        (.setCollection found apart _)
    case hold other exclusive body =>
      exact (enters_confining source id).carries_hold follows other exclusive body.obeys_free heap
        steady
    case note outcome =>
      have noted := bears_steadying.recorded steady (.step outcome) fun _ => nofun
      exact .of_on rfl rfl (confining_reaches noted (.record source id heap _))
    all_goals first | exact serves.carries_looking rfl heap steady | cases target

end Commands

end Heap

end ObjectModel
