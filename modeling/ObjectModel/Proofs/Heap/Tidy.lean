import ObjectModel.Proofs.Heap.Lifecycle
import ObjectModel.Proofs.Object.Rearrangement

/-!
# Tidy heaps

A heap is tidy if its objects are, and if its native code allocates tidy objects only, replaces none
and gives none another length behind its back.  What becomes of the objects of a heap is followed
handle by handle, whether a handle, the host or another view on the same collection changes them.
-/

namespace ObjectModel

/-- Whether a representation stands for a tidy object, whatever collection it shows. -/
def Representation.Tidy : Representation → Prop
  | .array inner => (Object.array inner).Tidy
  | .string inner => (Object.string inner).Tidy
  | .host view => ∀ key ∈ view.base.keys, key.isSpecial = false
  | .ordinary _ | .function .. | .pending _ | .spent => True

def Collection.isMap : Collection → Bool
  | .map _ => true
  | .sequence _ => false

theorem Collection.isMap_edit (collection : Collection) (edit : CollectionEdit) :
    (collection.edit edit).isMap = collection.isMap := by
  cases collection <;> cases edit <;> simp only [Collection.edit] <;> (repeat' split) <;> rfl

/-- Whether a command leaves it to the objects where they keep their properties.

No representation gives way to another one: between the look at an object that lacks a length and
the addition of one, it could become an array. -/
def Command.Orderly : {reply : Reply} → Command reply → Prop
  | _, .replace .. => False
  | _, .mutate _ mutation _ => mutation.Fits Key.isSpecial
  | _, .resize _ length _ => length ≤ maxArrayLength
  | _, _ => True

/-- The discipline of code that keeps objects tidy. -/
def Discipline.tidy : Discipline where
  permits := Command.Orderly
  admits := Representation.Tidy

theorem Representation.Tidy.of_view? {representation : Representation} {heap : Heap}
    {object : Object} (tidy : representation.Tidy)
    (viewed : heap.view? representation = some object) : object.Tidy := by
  cases representation
  case host view =>
    obtain ⟨collection, _, rfl⟩ := Option.map_eq_some_iff.mp viewed
    cases collection
    case map => exact ⟨trivial, fun _ _ => rfl⟩
    case sequence => exact ⟨trivial, tidy⟩
  case pending => cases viewed
  case spent => cases viewed
  case array inner =>
    cases viewed
    exact tidy
  case string inner =>
    cases viewed
    exact tidy
  all_goals
    cases viewed
    exact ⟨trivial, fun _ _ => rfl⟩

namespace Heap

def object? (heap : Heap) (id : ObjectId) : Option Object :=
  (heap.cell? id).bind fun cell => heap.view? cell.value

/-- Whether a representation is tidy with the collection that it shows. -/
def Tidies (heap : Heap) (representation : Representation) : Prop :=
  representation.Tidy ∨ ∃ object, heap.view? representation = some object ∧ object.Tidy

/-- Whether nobody holds the lazy objects of a heap, all objects are tidy and all code keeps them
so. -/
structure Tidy (heap : Heap) : Prop where
  steady : heap.Steady
  runs : ∀ id cell, heap.cell? id = some cell → cell.value.Runs .tidy
  tidies : ∀ id cell, heap.cell? id = some cell → heap.Tidies cell.value

/-- What becomes of the objects of a heap, each with the keys that are spared. -/
structure Rearranges (spared : ObjectId → Key → Prop) (before after : Heap) : Prop where
  spent : ∀ id, before.cell? id = some (.new .spent) → after.cell? id = some (.new .spent)
  objects : ∀ id object, before.object? id = some object →
    ∃ next, after.object? id = some next ∧ object.Rearranges (spared id) next

/-- Whether representations that are viewed in a heap are viewed in a later one, in which at most
the collections have changed. -/
def Shows (before after : Heap) : Prop :=
  ∀ representation object, before.view? representation = some object →
    ∃ next, after.view? representation = some next ∧
      ∀ spared, object.Rearranges spared next

variable {heap before after : Heap} {id : ObjectId} {cell : ObjectCell Representation}
  {representation : Representation} {object next : Object} {spared : ObjectId → Key → Prop}

/-- Views read nothing of a heap but the collections. -/
theorem view?_congr (same : after.collections = before.collections)
    (representation : Representation) :
    after.view? representation = before.view? representation := by
  cases representation
  case host view =>
    unfold view? collection?
    rw [same]
  all_goals rfl

theorem Shows.of_collections (same : after.collections = before.collections) :
    before.Shows after := by
  intro representation object viewed
  refine ⟨object, ?_, fun spared => .refl spared object⟩
  rw [view?_congr same, viewed]

theorem Shows.of_kinds
    (kinds : ∀ source collection, before.collection? source = some collection →
      ∃ next, after.collection? source = some next ∧ next.isMap = collection.isMap) :
    before.Shows after := by
  intro representation object viewed
  cases representation
  case host view =>
    obtain ⟨collection, found, rfl⟩ := Option.map_eq_some_iff.mp viewed
    obtain ⟨next, foundNext, kind⟩ := kinds view.source collection found
    refine ⟨_, Option.map_eq_some_iff.mpr ⟨next, foundNext, rfl⟩, fun spared => ?_⟩
    cases collection <;> cases next
    case map.map => exact .of_furtherKeys rfl rfl rfl (fun _ => trivial) rfl
    case sequence.sequence => exact .of_furtherKeys rfl rfl rfl (fun _ => trivial) rfl
    all_goals cases kind
  case pending => cases viewed
  case spent => cases viewed
  all_goals exact ⟨object, viewed, fun spared => .refl spared object⟩

theorem Tidies.of_view? (tidies : heap.Tidies representation)
    (viewed : heap.view? representation = some object) : object.Tidy := by
  rcases tidies with tidy | ⟨other, viewedOther, tidy⟩
  · exact tidy.of_view? viewed
  · rw [viewed] at viewedOther
    cases viewedOther
    exact tidy

theorem Tidies.shown (tidies : before.Tidies representation) (shows : before.Shows after) :
    after.Tidies representation := by
  rcases tidies with tidy | ⟨object, viewed, tidy⟩
  · exact .inl tidy
  · obtain ⟨next, viewedNext, rearranges⟩ := shows representation object viewed
    exact .inr ⟨next, viewedNext, (rearranges fun _ => True).tidy tidy⟩

theorem object?_of_found (found : heap.cell? id = some cell) :
    heap.object? id = heap.view? cell.value := by
  unfold object?
  rw [found]
  rfl

theorem object?_of_examine (examined : heap.examine id = .ok object) :
    heap.object? id = some object := by
  obtain ⟨representation, looked, viewing⟩ := exists_of_bind_eq_ok examined
  obtain ⟨cell, found, rfl⟩ := cell?_of_look looked
  rw [object?_of_found found]
  exact view?_of_viewed viewing

/-- What is new under a handle has to be tidy; all else is. -/
theorem Tidy.of_cells (tidy : before.Tidy) (shows : before.Shows after)
    (cells : ∀ id next, after.cell? id = some next → before.cell? id = some next ∨
      ((next.value.isLazy = true → next.borrow = .free) ∧ next.value.Runs .tidy ∧
        after.Tidies next.value)) : after.Tidy := by
  constructor
  case steady =>
    intro id next found lazy
    rcases cells id next found with old | ⟨free, _, _⟩
    · exact tidy.steady id next old lazy
    · exact free lazy
  case runs =>
    intro id next found
    rcases cells id next found with old | ⟨_, runs, _⟩
    · exact tidy.runs id next old
    · exact runs
  case tidies =>
    intro id next found
    rcases cells id next found with old | ⟨_, _, tidies⟩
    · exact (tidy.tidies id next old).shown shows
    · exact tidies

namespace Rearranges

theorem refl (spared : ObjectId → Key → Prop) (heap : Heap) : heap.Rearranges spared heap where
  spent _ spent := spent
  objects _ object seen := ⟨object, seen, .refl _ object⟩

theorem trans {first second third : Heap} (early : first.Rearranges spared second)
    (late : second.Rearranges spared third) : first.Rearranges spared third where
  spent _ spent := late.spent _ (early.spent _ spent)
  objects _ object seen := by
    obtain ⟨between, seenBetween, rearranges⟩ := early.objects _ object seen
    obtain ⟨next, seenNext, rearrangesNext⟩ := late.objects _ between seenBetween
    exact ⟨next, seenNext, rearranges.trans rearrangesNext⟩

theorem of_cells (shows : before.Shows after)
    (cells : ∀ id cell, before.cell? id = some cell → after.cell? id = some cell ∨
      (cell.value.isLazy = false ∧ ∃ next, after.cell? id = some next ∧
        ∀ object, before.view? cell.value = some object →
          ∃ changed, after.view? next.value = some changed ∧
            object.Rearranges (spared id) changed)) : before.Rearranges spared after := by
  constructor
  case spent =>
    intro id spent
    rcases cells id _ spent with same | ⟨eager, _⟩
    · exact same
    · cases eager
  case objects =>
    intro id object seen
    obtain ⟨cell, found, viewed⟩ := Option.bind_eq_some_iff.mp seen
    rcases cells id cell found with same | ⟨_, next, foundNext, changes⟩
    · obtain ⟨next, viewedNext, rearranges⟩ := shows cell.value object viewed
      refine ⟨next, ?_, rearranges (spared id)⟩
      rw [object?_of_found same, viewedNext]
    · obtain ⟨changed, viewedNext, rearranges⟩ := changes object viewed
      refine ⟨changed, ?_, rearranges⟩
      rw [object?_of_found foundNext, viewedNext]

/-- A handle whose factory is entered has no object before, so what the factory does to it does not
count. -/
theorem of_entered {factory : Code .representation} {last : Heap}
    (pending : heap.cell? id = some (.new (.pending factory)))
    (rearranges : (heap.entered id).Rearranges spared after)
    (cells : ∀ other, other ≠ id → last.cell? other = after.cell? other)
    (collections : last.collections = after.collections) : heap.Rearranges spared last := by
  have others {other : ObjectId} (apart : other ≠ id) :
      (heap.entered id).cell? other = heap.cell? other := by
    rw [cell?_entered pending, if_neg apart]
  constructor
  case spent =>
    intro other spent
    have apart : other ≠ id := by
      rintro rfl
      rw [pending] at spent
      cases spent
    rw [cells other apart]
    apply rearranges.spent
    rw [others apart, spent]
  case objects =>
    intro other object seen
    have apart : other ≠ id := by
      rintro rfl
      rw [object?_of_found pending] at seen
      cases seen
    have seenEntered : (heap.entered id).object? other = some object := by
      unfold object?
      rw [others apart]
      exact seen
    obtain ⟨next, seenNext, rearrangesNext⟩ := rearranges.objects other object seenEntered
    refine ⟨next, ?_, rearrangesNext⟩
    unfold object? at seenNext ⊢
    rw [cells other apart]
    simp only [view?_congr collections]
    exact seenNext

end Rearranges

theorem collection?_setCollection {source : CollectionId} {collection : Collection}
    (found : heap.collection? source = some collection) (next : Collection)
    (other : CollectionId) :
    (heap.setCollection source next).collection? other =
      if other = source then some next else heap.collection? other := by
  have inside : source.index < heap.collections.size := (Array.getElem?_eq_some_iff.mp found).1
  unfold setCollection collection?
  split
  next here =>
    rw [here]
    exact Array.getElem?_setIfInBounds_self_of_lt inside
  next elsewhere =>
    apply Array.getElem?_setIfInBounds_ne
    intro same
    exact elsewhere (congrArg CollectionId.mk same).symm

theorem collection?_share {source : CollectionId} {shared : Collection}
    (found : heap.collection? source = some shared) (collection : Collection)
    (names : List (String × CollectionId)) :
    ({ heap with collections := heap.collections.push collection, names } : Heap).collection?
      source = some shared := by
  have inside : source.index < heap.collections.size := (Array.getElem?_eq_some_iff.mp found).1
  exact (Array.getElem?_push_lt inside).trans ((Array.getElem?_eq_getElem inside).symm.trans found)

/-- Whoever changes a collection, the views on it go on. -/
theorem shows_setCollection {source : CollectionId} {collection next : Collection}
    (found : heap.collection? source = some collection) (kind : next.isMap = collection.isMap) :
    heap.Shows (heap.setCollection source next) := by
  apply Shows.of_kinds
  intro other shared foundOther
  rw [collection?_setCollection found]
  split
  next here =>
    rw [here, found] at foundOther
    cases foundOther
    exact ⟨next, rfl, kind⟩
  next => exact ⟨shared, foundOther, rfl⟩

theorem Shows.congr {last : Heap} (shows : before.Shows after)
    (same : last.collections = after.collections) : before.Shows last := by
  intro representation object viewed
  rw [view?_congr same]
  exact shows representation object viewed

theorem shows_store (viewed : heap.view? cell.value = some object) (kind : next.kind = object.kind)
    (isMap : next.isMap = object.isMap) :
    heap.Shows (heap.store id cell next) ∧
      (heap.store id cell next).view? (represent cell.value next) = some next := by
  have native (notHost : object.kind ≠ .host) :
      (heap.store id cell next).view? (represent cell.value next) = some next := by
    have held := (native?_eq_some_iff heap).mpr ⟨viewed, notHost⟩
    exact ((native?_eq_some_iff _).mp (native?_represent held kind)).1
  obtain ⟨value, borrow⟩ := cell
  cases value
  case host view =>
    obtain ⟨collection, found, same⟩ := Option.map_eq_some_iff.mp viewed
    have stored (shown : Collection) (same : shown.isMap = collection.isMap) :=
      And.intro (shows_setCollection found same)
        ((collection?_setCollection found shown view.source).trans (if_pos rfl))
    cases collection with
    | map entries =>
      cases same
      cases next with
      | map changed =>
        obtain ⟨shows, replaced⟩ := stored (.map changed.entries) rfl
        exact ⟨shows.congr rfl, Option.map_eq_some_iff.mpr ⟨_, replaced, rfl⟩⟩
      | sequence => cases isMap
      | _ => cases kind
    | sequence items =>
      cases same
      cases next with
      | sequence changed =>
        obtain ⟨shows, replaced⟩ := stored (.sequence changed.items) rfl
        exact ⟨shows.congr rfl, Option.map_eq_some_iff.mpr ⟨_, replaced, rfl⟩⟩
      | map => cases isMap
      | _ => cases kind
  case pending => cases viewed
  case spent => cases viewed
  all_goals
    cases viewed
    exact ⟨.of_collections rfl, native nofun⟩

end Heap

end ObjectModel
