import ObjectModel.Proofs.Heap.Tidy

/-!
# The regime of tidy heaps

Whatever commands do to a heap comes down to a few changes.  Each leads from tidy heaps to tidy
ones, and only rearranges the objects that there are.
-/

namespace ObjectModel

namespace Heap

variable {heap : Heap} {id : ObjectId} {cell : ObjectCell Representation} {object next : Object}
  {spared : ObjectId → Key → Prop}

/-- The regime in which heaps are tidy, and spared keys keep their places. -/
def tidying (spared : ObjectId → Key → Prop) : Regime where
  safe := Tidy
  leadsTo := Rearranges spared
  refl := .refl spared
  trans := Rearranges.trans

theorem Tidy.reaches_setCollection (tidy : heap.Tidy) {source : CollectionId}
    {collection next : Collection} (found : heap.collection? source = some collection)
    (kind : next.isMap = collection.isMap) :
    (tidying spared).Reaches heap (heap.setCollection source next) := by
  have shows := shows_setCollection found kind
  exact ⟨tidy.of_cells shows fun _ _ same => .inl same, .of_cells shows fun _ _ same => .inl same⟩

theorem Tidy.reaches_share (tidy : heap.Tidy) (collection : Collection)
    (names : List (String × CollectionId)) :
    (tidying spared).Reaches heap
      { heap with collections := heap.collections.push collection, names } := by
  have shows : heap.Shows
      { heap with collections := heap.collections.push collection, names } := by
    apply Shows.of_kinds
    exact fun source shared found => ⟨shared, collection?_share found collection names, rfl⟩
  exact ⟨tidy.of_cells shows fun _ _ same => .inl same, .of_cells shows fun _ _ same => .inl same⟩

theorem Tidy.reaches_record (tidy : heap.Tidy) (event : Event) :
    (tidying spared).Reaches heap (heap.record event) := by
  have shows : heap.Shows (heap.record event) := .of_collections rfl
  exact ⟨tidy.of_cells shows fun _ _ same => .inl same, .of_cells shows fun _ _ same => .inl same⟩

theorem Tidy.reaches_push (tidy : heap.Tidy) {representation : Representation}
    (obeys : representation.Obeys .tidy) :
    (tidying spared).Reaches heap
      { heap with cells := heap.cells.push (.new representation) } := by
  have shows : heap.Shows { heap with cells := heap.cells.push (.new representation) } :=
    .of_collections rfl
  obtain ⟨admitted, runs⟩ := Representation.obeys_iff.mp obeys
  constructor
  · apply tidy.of_cells shows
    intro id next found
    rw [cell?_push] at found
    split at found
    next =>
      cases found
      exact .inr ⟨fun _ => rfl, runs, .inl admitted⟩
    next => exact .inl found
  · apply Rearranges.of_cells shows
    intro id cell found
    left
    rw [cell?_push, if_neg (Nat.ne_of_lt (Array.getElem?_eq_some_iff.mp found).1)]
    exact found

theorem Tidy.reaches_changed {after : Heap} (tidy : heap.Tidy) (shows : heap.Shows after)
    (found : heap.cell? id = some cell) (eager : cell.value.isLazy = false)
    {changed : ObjectCell Representation}
    (cells : ∀ other, after.cell? other = if other = id then some changed else heap.cell? other)
    (kept : changed.value.isLazy = false) (runs : changed.value.Runs .tidy)
    (tidies : after.Tidies changed.value)
    (becomes : ∀ object, heap.view? cell.value = some object →
      ∃ next, after.view? changed.value = some next ∧ object.Rearranges (spared id) next) :
    (tidying spared).Reaches heap after := by
  constructor
  · apply tidy.of_cells shows
    intro other next foundNext
    rw [cells] at foundNext
    split at foundNext
    next =>
      cases foundNext
      refine .inr ⟨fun lazy => ?_, runs, tidies⟩
      rw [kept] at lazy
      cases lazy
    next => exact .inl foundNext
  · apply Rearranges.of_cells shows
    intro other own foundOwn
    rw [cells]
    split
    next here =>
      rw [here, found] at foundOwn
      cases foundOwn
      exact .inr ⟨eager, changed, rfl, here ▸ becomes⟩
    next => exact .inl foundOwn

theorem Tidy.reaches_store (tidy : heap.Tidy) (grasped : heap.grasp id = .ok (cell, object))
    (rearranges : object.Rearranges (spared id) next) :
    (tidying spared).Reaches heap (heap.store id cell next) := by
  obtain ⟨found, viewed, _⟩ := of_grasp grasped
  obtain ⟨shows, viewedNext⟩ := shows_store viewed rearranges.kind rearranges.isMap
  have eager := isLazy_of_view? viewed
  apply tidy.reaches_changed shows found eager (cell?_store found next)
  case kept => exact isLazy_represent cell.value next eager
  case runs => exact (tidy.runs id cell found).represent next
  case tidies =>
    exact .inr ⟨next, viewedNext, rearranges.tidy ((tidy.tidies id cell found).of_view? viewed)⟩
  case becomes =>
    intro own viewedOwn
    rw [viewed] at viewedOwn
    cases viewedOwn
    exact ⟨next, viewedNext, rearranges⟩

theorem Tidy.reaches_borrowed (tidy : heap.Tidy) (found : heap.cell? id = some cell)
    (eager : cell.value.isLazy = false) (borrow : Borrow) :
    (tidying spared).Reaches heap (heap.setCell id { cell with borrow }) := by
  have shows : heap.Shows (heap.setCell id { cell with borrow }) := .of_collections rfl
  apply tidy.reaches_changed shows found eager (cell?_setCell found _)
  case kept => exact eager
  case runs => exact tidy.runs id cell found
  case tidies => exact (tidy.tidies id cell found).shown shows
  case becomes => exact fun object viewed => ⟨object, viewed, .refl _ object⟩

theorem Tidy.entered {factory : Code .representation} (tidy : heap.Tidy)
    (pending : heap.cell? id = some (.new (.pending factory))) : (heap.entered id).Tidy := by
  have shows : heap.Shows (heap.entered id) := .of_collections rfl
  apply tidy.of_cells shows
  intro other next found
  rw [cell?_entered pending] at found
  split at found
  next =>
    cases found
    exact .inr ⟨fun _ => rfl, trivial, .inl trivial⟩
  next => exact .inl found

/-- What a factory builds is new, so it has to be tidy and to obey, and that is all. -/
theorem Tidy.reaches_built {factory : Code .representation} {after : Heap}
    {representation : Representation} (pending : heap.cell? id = some (.new (.pending factory)))
    (obeys : representation.Obeys .tidy)
    (reached : (tidying spared).Reaches (heap.entered id) after) :
    (tidying spared).Reaches heap (after.setCell id (.new representation)) := by
  have spent : after.cell? id = some (.new .spent) := by
    apply reached.2.spent
    rw [cell?_entered pending, if_pos rfl]
  have shows : after.Shows (after.setCell id (.new representation)) := .of_collections rfl
  obtain ⟨admitted, runs⟩ := Representation.obeys_iff.mp obeys
  constructor
  · apply Tidy.of_cells reached.1 shows
    intro other next found
    rw [cell?_setCell spent] at found
    split at found
    next =>
      cases found
      exact .inr ⟨fun _ => rfl, runs, .inl admitted⟩
    next => exact .inl found
  · apply Rearranges.of_entered pending reached.2
    case cells =>
      intro other apart
      rw [cell?_setCell spent, if_neg apart]
    case collections => rfl

theorem enters_tidying (spared : ObjectId → Key → Prop) : (tidying spared).Enters .tidy where
  steady := Tidy.steady
  runs tidy := tidy.runs _ _
  spent rearranges := rearranges.spent _
  recorded tidy event _ := tidy.reaches_record event
  borrowed tidy _ _ found eager borrow := Tidy.reaches_borrowed tidy found eager borrow
  entered tidy _ _ pending := Tidy.entered tidy pending
  failed _ _ _ pending _ _ _ _ reached :=
    ⟨reached.1, .of_entered pending reached.2 (fun _ _ => rfl) rfl⟩
  built _ _ _ pending _ _ _ _ obeys reached := Tidy.reaches_built pending obeys reached

end Heap

end ObjectModel
