import ObjectModel.Proofs.Heap.Lifecycle
import ObjectModel.Proofs.Heap.Tidy

/-!
# Invariants of objects

What holds of every object that native code represents, and is kept by whatever a command makes of
an object, holds of all objects of a heap at any time, whatever code runs.  Views on host
collections also change with what the host or other views do to the collection, so an invariant may
not depend on entries and items.
-/

namespace ObjectModel

/-- Whether two collections are maps with the same types of keys and elements, or sequences with the
same type of elements. -/
inductive Collection.SameType : Collection → Collection → Prop
  | map {keyType : KeyType} {elementType : ElementType}
      (entries next : OrderedMap keyType.Carrier elementType.Carrier) :
      SameType (.map entries) (.map next)
  | sequence {elementType : ElementType} (items next : List elementType.Carrier) :
      SameType (.sequence items) (.sequence next)

namespace Collection.SameType

theorem refl (collection : Collection) : collection.SameType collection := by
  cases collection
  case map entries => exact .map entries entries
  case sequence items => exact .sequence items items

theorem edit (collection : Collection) (edit : CollectionEdit) :
    collection.SameType (collection.edit edit) := by
  cases collection <;> cases edit <;> simp only [Collection.edit] <;> (repeat' split) <;>
    first | exact .map _ _ | exact .sequence _ _

end Collection.SameType

/-- The object that a view on a collection is. -/
def HostView.showing (view : HostView) : Collection → Object
  | .map entries => .map ⟨entries, view.growable, view.base⟩
  | .sequence items => .sequence ⟨items, view.growable, view.base⟩

/-- The lengths that a command may assign are those of arrays. -/
def Command.Fits : {reply : Reply} → Command reply → Prop
  | _, .resize _ length _ => length ≤ maxArrayLength
  | _, _ => True

/-- The discipline of code that assigns no impossible length, and is free otherwise. -/
def Discipline.fitting : Discipline where
  permits := Command.Fits
  admits _ := True

namespace Object

variable {object next : Object}

namespace Becomes

variable {discipline other : Discipline}

theorem mono (becomes : object.Becomes discipline next)
    (permits : ∀ {reply : Reply} {command : Command reply}, discipline.permits command →
      other.permits command) : object.Becomes other next := by
  cases becomes with
  | mutated done => exact .mutated done
  | linked prototype => exact .linked object prototype
  | closed => exact .closed object
  | resized permitted done => exact .resized (permits permitted) done
  | swapped done => exact .swapped done

theorem kind (becomes : object.Becomes discipline next) : next.kind = object.kind := by
  cases becomes with
  | mutated done => exact kind_mutate done
  | linked prototype => exact kind_setPrototype object prototype
  | closed => exact kind_preventExtensions object
  | resized _ done => cases object <;> cases done <;> rfl
  | swapped done => cases object <;> cases done <;> rfl

theorem isMap (becomes : object.Becomes discipline next) : next.isMap = object.isMap := by
  cases becomes with
  | mutated done => cases mutates_of_mutate done <;> rfl
  | linked => cases object <;> rfl
  | closed => cases object <;> rfl
  | resized _ done => cases object <;> cases done <;> rfl
  | swapped done => cases object <;> cases done <;> rfl

theorem sameType (becomes : object.Becomes discipline next) {collection : Collection}
    (shown : Heap.shown? object = some collection) :
    ∃ changed, Heap.shown? next = some changed ∧ collection.SameType changed := by
  cases becomes with
  | mutated done =>
    cases mutates_of_mutate done <;> cases shown <;>
      first | exact ⟨_, rfl, .map _ _⟩ | exact ⟨_, rfl, .sequence _ _⟩
  | linked =>
    cases object <;> cases shown <;>
      first | exact ⟨_, rfl, .map _ _⟩ | exact ⟨_, rfl, .sequence _ _⟩
  | closed =>
    cases object <;> cases shown <;>
      first | exact ⟨_, rfl, .map _ _⟩ | exact ⟨_, rfl, .sequence _ _⟩
  | resized _ done =>
    cases object <;> cases shown <;> cases done <;>
      first | exact ⟨_, rfl, .map _ _⟩ | exact ⟨_, rfl, .sequence _ _⟩
  | swapped done =>
    cases object <;> cases shown <;> cases done <;>
      first | exact ⟨_, rfl, .map _ _⟩ | exact ⟨_, rfl, .sequence _ _⟩

end Becomes

variable {discipline : Discipline}

/-- What commands that a discipline permits make of an object once they hold it, whether the caller
hears of a refusal as a fault or not. -/
inductive Changes (discipline : Discipline) : Object → Object → Prop
  | mutated (object : Object) (mutation : OwnMutation) (strict : Bool) :
      Changes discipline object ((mutateOwn mutation strict).on object).2
  | linked (object : Object) (prototype : Option ObjectId) :
      Changes discipline object (object.setPrototype prototype)
  | closed (object : Object) : Changes discipline object object.preventExtensions
  | resized (object : Object) {id : ObjectId} {length : Nat} {strict : Bool}
      (permitted : discipline.permits (.resize id length strict)) :
      Changes discipline object ((resizeOwn length strict).on object).2
  | swapped (object : Object) (a b : UInt32) :
      Changes discipline object ((Heap.swapStored a b).on object).2

theorem exists_resize (object : Object) (length : Nat) (strict : Bool) :
    ∃ verdict, object.resize length = .ok (verdict, ((resizeOwn length strict).on object).2) := by
  rw [object.on_resizeOwn]
  cases object <;> exact ⟨_, rfl⟩

theorem exists_exchangeStored (object : Object) (a b : UInt32) :
    ∃ swapped,
      Heap.exchangeStored a b object = .ok (swapped, ((Heap.swapStored a b).on object).2) := by
  cases object <;> exact ⟨_, rfl⟩

/-- A verdict that is a fault has left the object as it was. -/
theorem Changes.becomes (changes : object.Changes discipline next) :
    next = object ∨ object.Becomes discipline next := by
  cases changes with
  | mutated mutation strict =>
    rw [object.on_mutateOwn]
    cases done : object.mutate mutation with
    | ok judged => exact .inr (.mutated done)
    | error fault => exact .inl rfl
  | linked prototype => exact .inr (.linked object prototype)
  | closed => exact .inr (.closed object)
  | resized permitted =>
    obtain ⟨verdict, done⟩ := object.exists_resize _ _
    exact .inr (.resized permitted done)
  | swapped a b =>
    obtain ⟨swapped, done⟩ := object.exists_exchangeStored a b
    exact .inr (.swapped done)

theorem Becomes.changes (becomes : object.Becomes discipline next) :
    object.Changes discipline next := by
  cases becomes with
  | @mutated _ mutation verdict done =>
    have same : ((mutateOwn mutation true).on object).2 = next := by
      rw [object.on_mutateOwn, done]
      rfl
    rw [← same]
    exact .mutated object mutation true
  | linked prototype => exact .linked object prototype
  | closed => exact .closed object
  | @resized _ id length strict verdict permitted done =>
    obtain ⟨_, resized⟩ := object.exists_resize length strict
    rw [(Prod.mk.inj (Except.ok.inj (done.symm.trans resized))).2]
    exact .resized object permitted
  | @swapped _ a b exchanged done =>
    obtain ⟨_, swapped⟩ := object.exists_exchangeStored a b
    rw [(Prod.mk.inj (Except.ok.inj (done.symm.trans swapped))).2]
    exact .swapped object a b

/-- What an object changes to has a property that the object has, if what it becomes has it. -/
theorem Changes.keeps (changes : object.Changes discipline next) (holds : Object → Prop)
    (held : holds object) (kept : object.Becomes discipline next → holds next) : holds next := by
  rcases changes.becomes with rfl | becomes
  · exact held
  · exact kept becomes

/-- A property of objects that commands keep, and that does not depend on what a shared collection
contains. -/
structure Invariant where
  holds : Object → Prop
  changes : ∀ {object next}, holds object → object.Changes .fitting next → holds next
  shared : ∀ {view : HostView} {collection next}, holds (view.showing collection) →
    collection.SameType next → holds (view.showing next)

end Object

/-- Whether an invariant holds of what a representation stands for, whatever collection it shows. -/
def Representation.Upholds (invariant : Object.Invariant) (representation : Representation) :
    Prop :=
  ∀ heap object, Heap.view? heap representation = some object → invariant.holds object

/-- The discipline of code that represents objects of which an invariant holds and assigns no
impossible length, and is free otherwise. -/
def Discipline.upholding (invariant : Object.Invariant) : Discipline where
  permits := Command.Fits
  admits := Representation.Upholds invariant

namespace Heap

variable {heap before after : Heap} {id : ObjectId} {cell : ObjectCell Representation}
  {representation : Representation} {object next : Object} {invariant : Object.Invariant}

/-- Whether an invariant holds of what a representation stands for, if there is anything. -/
def Supports (heap : Heap) (invariant : Object.Invariant) (representation : Representation) :
    Prop :=
  representation.Upholds invariant ∨
    ∃ object, heap.view? representation = some object ∧ invariant.holds object

/-- Whether nobody holds the lazy objects of a heap, an invariant holds of all objects and all code
builds only such objects. -/
structure Upholds (heap : Heap) (invariant : Object.Invariant) : Prop where
  steady : heap.Steady
  runs : ∀ id cell, heap.cell? id = some cell → cell.value.Runs (.upholding invariant)
  supports : ∀ id cell, heap.cell? id = some cell → heap.Supports invariant cell.value

/-- Whether the collections of a heap go on with their types. -/
def SameTypes (before after : Heap) : Prop :=
  ∀ source collection, before.collection? source = some collection →
    ∃ next, after.collection? source = some next ∧ collection.SameType next

namespace SameTypes

theorem of_collections (same : after.collections = before.collections) :
    before.SameTypes after := by
  intro source collection found
  refine ⟨collection, ?_, .refl collection⟩
  unfold collection? at found ⊢
  rw [same, found]

theorem trans {first second third : Heap} (early : first.SameTypes second)
    (late : second.SameTypes third) : first.SameTypes third := by
  intro source collection found
  obtain ⟨between, foundBetween, sameBetween⟩ := early source collection found
  obtain ⟨next, foundNext, sameNext⟩ := late source between foundBetween
  refine ⟨next, foundNext, ?_⟩
  cases sameBetween <;> cases sameNext
  · exact .map _ _
  · exact .sequence _ _

theorem setCollection {source : CollectionId} {collection next : Collection}
    (found : heap.collection? source = some collection) (same : collection.SameType next) :
    heap.SameTypes (heap.setCollection source next) := by
  intro other shared foundOther
  rw [collection?_setCollection found]
  split
  next here =>
    rw [here, found] at foundOther
    cases foundOther
    exact ⟨next, rfl, same⟩
  next => exact ⟨shared, foundOther, .refl shared⟩

theorem share (heap : Heap) (collection : Collection) (names : List (String × CollectionId)) :
    heap.SameTypes { heap with collections := heap.collections.push collection, names } :=
  fun _ shared found => ⟨shared, collection?_share found collection names, .refl shared⟩

/-- What a view has become is stored in its collection, for all views on it. -/
theorem store {discipline : Discipline} (viewed : heap.view? cell.value = some object)
    (becomes : object.Becomes discipline next) : heap.SameTypes (heap.store id cell next) := by
  unfold Heap.store
  simp only
  split
  next view changed isView shown =>
    rw [isView] at viewed
    obtain ⟨collection, found, shows⟩ := Option.map_eq_some_iff.mp viewed
    have shownBefore : shown? object = some collection := by
      rw [← shows]
      cases collection <;> rfl
    obtain ⟨other, shownNext, same⟩ := becomes.sameType shownBefore
    rw [shown] at shownNext
    cases shownNext
    exact setCollection found same
  next => exact of_collections rfl

end SameTypes

theorem view?_host {view : HostView} {collection : Collection}
    (found : heap.collection? view.source = some collection) :
    heap.view? (.host view) = some (view.showing collection) :=
  Option.map_eq_some_iff.mpr ⟨collection, found, by cases collection <;> rfl⟩

theorem Supports.later (supports : before.Supports invariant representation)
    (types : before.SameTypes after) : after.Supports invariant representation := by
  rcases supports with upholds | ⟨object, viewed, holds⟩
  · exact .inl upholds
  · right
    cases representation
    case host view =>
      obtain ⟨collection, found, _⟩ := Option.map_eq_some_iff.mp viewed
      rw [view?_host found] at viewed
      cases viewed
      obtain ⟨next, foundNext, same⟩ := types view.source collection found
      exact ⟨_, view?_host foundNext, invariant.shared holds same⟩
    case pending => cases viewed
    case spent => cases viewed
    all_goals exact ⟨object, viewed, holds⟩

theorem Supports.of_view? (supports : heap.Supports invariant representation)
    (viewed : heap.view? representation = some object) : invariant.holds object := by
  rcases supports with upholds | ⟨other, viewedOther, holds⟩
  · exact upholds heap object viewed
  · rw [viewed] at viewedOther
    cases viewedOther
    exact holds

/-- The regime in which an invariant holds of all objects. -/
def upholding (invariant : Object.Invariant) : Regime where
  safe heap := heap.Upholds invariant
  leadsTo before after := before.Settling after ∧ before.SameTypes after
  refl heap := ⟨steadying.refl heap, .of_collections rfl⟩
  trans early late := ⟨steadying.trans early.1 late.1, early.2.trans late.2⟩

namespace Upholds

theorem of_cells (upholds : before.Upholds invariant) (steady : after.Steady)
    (types : before.SameTypes after)
    (cells : ∀ id next, after.cell? id = some next → before.cell? id = some next ∨
      next.value.Runs (.upholding invariant) ∧ after.Supports invariant next.value) :
    after.Upholds invariant := by
  refine ⟨steady, ?_, ?_⟩
  · intro id next found
    rcases cells id next found with old | ⟨runs, _⟩
    · exact upholds.runs id next old
    · exact runs
  · intro id next found
    rcases cells id next found with old | ⟨_, supports⟩
    · exact (upholds.supports id next old).later types
    · exact supports

theorem of_cell (upholds : before.Upholds invariant) (steady : after.Steady)
    (types : before.SameTypes after) {changed : ObjectCell Representation}
    (cells : ∀ other, after.cell? other = if other = id then some changed else before.cell? other)
    (runs : changed.value.Runs (.upholding invariant))
    (supports : after.Supports invariant changed.value) : after.Upholds invariant := by
  apply upholds.of_cells steady types
  intro other next found
  rw [cells] at found
  split at found
  next =>
    cases found
    exact .inr ⟨runs, supports⟩
  next => exact .inl found

/-- What comes to stand under a handle may be anything that the discipline admits. -/
theorem setCell (upholds : heap.Upholds invariant) (found : heap.cell? id = some cell)
    (steady : (heap.setCell id (.new representation)).Steady)
    (obeys : representation.Obeys (.upholding invariant)) :
    (heap.setCell id (.new representation)).Upholds invariant := by
  obtain ⟨admitted, runs⟩ := Representation.obeys_iff.mp obeys
  exact upholds.of_cell steady (.of_collections rfl) (cell?_setCell found _) runs (.inl admitted)

theorem reaches (upholds : before.Upholds invariant) (settles : steadying.Reaches before after)
    (types : before.SameTypes after)
    (cells : ∀ id next, after.cell? id = some next → before.cell? id = some next ∨
      next.value.Runs (.upholding invariant) ∧ after.Supports invariant next.value) :
    (upholding invariant).Reaches before after :=
  ⟨upholds.of_cells settles.1 types cells, settles.2, types⟩

end Upholds

theorem withstands_upholding (invariant : Object.Invariant) :
    (upholding invariant).Withstands (.upholding invariant) where
  steady := Upholds.steady
  runs upholds := upholds.runs _ _
  spent := by
    rintro before after ⟨settling, _⟩ id spent
    exact (settling.2 id spent).1
  recorded upholds event unentered := by
    have recorded := bears_steadying.recorded upholds.steady event unentered
    exact upholds.reaches recorded (.of_collections rfl) fun _ _ same => .inl same
  borrowed upholds id cell found eager borrow := by
    have borrowed := bears_steadying.borrowed upholds.steady found eager borrow
    have supports := (upholds.supports id cell found).later (.of_collections rfl)
    have upholdsAfter := upholds.of_cell borrowed.1 (.of_collections rfl) (cell?_setCell found _)
      (upholds.runs id cell found) supports
    exact ⟨upholdsAfter, borrowed.2, .of_collections rfl⟩
  entered upholds _ _ pending :=
    upholds.of_cell (upholds.steady.entered pending) (.of_collections rfl) (cell?_entered pending)
      trivial (.inl nofun)
  failed upholds _ _ pending _ _ _ ran reached := by
    have failed := bears_steadying.failed upholds.steady pending ran
      ⟨reached.1.steady, reached.2.1⟩
    exact ⟨reached.1, failed.2, reached.2.2⟩
  built upholds id factory pending depth representation after ran obeys reached := by
    have built := bears_steadying.built upholds.steady pending ran representation.obeys_free
      ⟨reached.1.steady, reached.2.1⟩
    have spent : after.cell? id = some (.new .spent) := by
      refine (reached.2.1.2 id ?_).1
      rw [cell?_entered pending, if_pos rfl]
    exact ⟨reached.1.setCell spent built.1 obeys, built.2, reached.2.2⟩
  shared upholds collection names := by
    have shared := bears_steadying.withstands.shared upholds.steady collection names
    exact upholds.reaches shared (.share _ collection names) fun _ _ same => .inl same
  edited upholds source collection found edit := by
    have edited := bears_steadying.withstands.edited upholds.steady found edit
    exact upholds.reaches edited (.setCollection found (.edit collection edit))
      fun _ _ same => .inl same
  allocated upholds representation obeys := by
    have allocated := bears_steadying.allocated upholds.steady representation
    obtain ⟨admitted, runs⟩ := Representation.obeys_iff.mp obeys
    apply upholds.reaches allocated (.of_collections rfl)
    intro other next found
    rw [cell?_push] at found
    split at found
    next =>
      cases found
      exact .inr ⟨runs, .inl admitted⟩
    next => exact .inl found
  amended upholds id cell object grasped next becomes := by
    have amended := bears_steadying.reaches_store upholds.steady grasped next
    obtain ⟨found, viewed, _⟩ := of_grasp grasped
    have becomesFitting : object.Becomes .fitting next := becomes.mono fun fits => fits
    have holds := invariant.changes ((upholds.supports id cell found).of_view? viewed)
      becomesFitting.changes
    obtain ⟨_, viewedNext⟩ := @shows_store _ id _ _ _ viewed becomes.kind becomes.isMap
    have upholdsAfter := upholds.of_cell amended.1 (.store viewed becomes) (cell?_store found next)
      ((upholds.runs id cell found).represent next) (.inr ⟨next, viewedNext, holds⟩)
    exact ⟨upholdsAfter, amended.2, .store viewed becomes⟩

theorem carries_upholding {depth : Nat}
    (follows : (Engine.within depth).Follows (.within depth) (.upholding invariant)
      (upholding invariant)) {reply : Reply} (command : Command reply)
    (obeys : command.Obeys (.upholding invariant)) :
    (upholding invariant).Carries (command.execute (.within depth))
      (command.execute (.within depth)) := by
  apply (withstands_upholding invariant).carries_execute follows command obeys
  intro id representation replaces heap upholds cell found eager
  have admitted : representation.Obeys (.upholding invariant) := by
    cases command
    case replace target replacement =>
      obtain ⟨_, rfl⟩ : target = id ∧ replacement = representation := replaces
      exact obeys.2
    all_goals cases replaces
  have steady : (heap.setCell id (.new representation)).Steady :=
    upholds.steady.setCell found fun _ => rfl
  exact ⟨upholds.setCell found steady admitted, .setCell found eager _, .of_collections rfl⟩

namespace Upholds

/-- Whatever code runs that builds only objects of which the invariant holds, it goes on to hold. -/
theorem run (upholds : before.Upholds invariant) {depth : Nat} {goal : Goal} {code : Code goal}
    (obeys : code.Obeys (.upholding invariant)) {outcome : Except Fault goal.Result}
    (ran : (code.run depth).on before = some (outcome, after)) : after.Upholds invariant := by
  have keeps : (upholding invariant).Keeps (code.run depth) :=
    Regime.keeps_run (fun {_} follows {_} command obeys => carries_upholding follows command obeys)
      depth obeys
  exact (keeps before upholds outcome after ran).1

theorem holds (upholds : heap.Upholds invariant) (seen : heap.object? id = some object) :
    invariant.holds object := by
  obtain ⟨cell, found, viewed⟩ := Option.bind_eq_some_iff.mp seen
  exact (upholds.supports id cell found).of_view? viewed

theorem new {policy : Policy} (ordinary : ∀ prototype, invariant.holds (.ordinary (.new prototype)))
    (array : ∀ prototype, invariant.holds (.array (.new prototype policy)))
    (string : ∀ prototype, invariant.holds (.string (.new .empty prototype))) :
    (Heap.new policy).Upholds invariant := by
  constructor
  case steady => exact Steady.new policy
  case runs => rintro ⟨_ | _ | _ | _ | index⟩ cell found <;> cases found <;> trivial
  case supports =>
    rintro ⟨_ | _ | _ | _ | index⟩ cell found <;> cases found <;> left <;> rintro _ object ⟨⟩
    · exact ordinary _
    · exact ordinary _
    · exact array _
    · exact string _

end Upholds

end Heap

end ObjectModel
