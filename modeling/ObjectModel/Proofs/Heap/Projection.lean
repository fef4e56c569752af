import ObjectModel.Proofs.Heap.Eager
import ObjectModel.Proofs.Tree

/-!
# The trees of values

Arrays hold the values at the indices below their lengths, and ordinary objects and functions those
of their own enumerable properties.  What a value holds, directly or not, forms a graph.  A value
has a tree if nothing in that graph lies on a cycle, and then it has only one: wherever an object is
held, its tree is there in full.
-/

namespace ObjectModel

namespace Object

/-- The value at a key; a missing property counts as `undefined`. -/
def valueAt (object : Object) (key : Key) : Value :=
  ((object.getOwn key).bind fun slot => slot.descriptor.value?).getD .undefined

/-- Whether an object is exported as a map of its properties. -/
def hasEntries : Object → Bool
  | .ordinary _ | .function _ => true
  | _ => false

def enumerableKeys (object : Object) : List Key := (object.ownKeys.filter Prod.snd).map Prod.fst

/-- The keys at which an object holds what is exported with it. -/
def exportedKeys : Object → List Key
  | .array inner => (List.range inner.length).map fun index => .ofIndex (UInt32.ofNat index)
  | .ordinary inner => (Object.ordinary inner).enumerableKeys
  | .function base => (Object.function base).enumerableKeys
  | .string _ | .map _ | .sequence _ => []

theorem exportedKeys_eq {object : Object} (hasEntries : object.hasEntries = true) :
    object.exportedKeys = object.enumerableKeys := by
  cases object <;> first | rfl | cases hasEntries

/-- Whether no function would have to be called to export what an object holds. -/
def Plain (object : Object) : Prop :=
  ∀ key ∈ object.exportedKeys, ∀ slot, object.getOwn key = some slot →
    slot.descriptor.isAccessor = false

end Object

namespace Heap

/-- What a value holds that is exported with it. -/
inductive Holds (heap : Heap) : Value → Value → Prop
  | exported {id : ObjectId} {object : Object} {key : Key} (seen : heap.examine id = .ok object)
      (listed : key ∈ object.exportedKeys) : Holds heap (.object id) (object.valueAt key)

/-- What is held by a value, directly or not, and the value itself. -/
inductive Reaches (heap : Heap) (root : Value) : Value → Prop
  | root : Reaches heap root root
  | held {parent child : Value} (reached : Reaches heap root parent)
      (holds : heap.Holds parent child) : Reaches heap root child

/-- Whether a value lies on a cycle. -/
def Circular (heap : Heap) (value : Value) : Prop :=
  ∃ child, heap.Holds value child ∧ heap.Reaches child value

/-- Whether a value holds one that lies on a cycle, or lies on one itself. -/
def ReachesCycle (heap : Heap) (root : Value) : Prop :=
  ∃ value, heap.Reaches root value ∧ heap.Circular value

/-- Whether all objects that a value holds are there, and no property that is exported is an
accessor. -/
def Exportable (heap : Heap) (root : Value) : Prop :=
  ∀ id, heap.Reaches root (.object id) → ∃ object, heap.examine id = .ok object ∧ object.Plain

/-- The tree of a value.

The list of an array has exactly its length, as what is missing counts as `undefined`.  The map of
an ordinary object or a function has the text of each of its own enumerable keys, and if several
keys have one text, the last of them counts. -/
inductive Projects (heap : Heap) : Value → Tree → Prop
  | undefined : Projects heap .undefined .null
  | null : Projects heap .null .null
  | boolean (b : Bool) : Projects heap (.boolean b) (.boolean b)
  | number (n : Number) : Projects heap (.number n) (.ofNumber n)
  | text (t : Text) : Projects heap (.text t) (.text t.toString)
  | string {id : ObjectId} {string : StringObject} (seen : heap.examine id = .ok (.string string)) :
      Projects heap (.object id) (.text string.value.toString)
  | map {id : ObjectId} {keyType : KeyType} {elementType : ElementType}
      {view : HostMap keyType elementType} (seen : heap.examine id = .ok (.map view)) :
      Projects heap (.object id) view.toTree
  | sequence {id : ObjectId} {elementType : ElementType} {view : HostSequence elementType}
      (seen : heap.examine id = .ok (.sequence view)) : Projects heap (.object id) view.toTree
  | array {id : ObjectId} {array : ArrayObject} {items : List Tree}
      (seen : heap.examine id = .ok (.array array)) (length : items.length = array.length)
      (each : ∀ index (inside : index < items.length),
        Projects heap ((Object.array array).valueAt (.ofIndex (UInt32.ofNat index))) items[index]) :
      Projects heap (.object id) (.list items)
  | entries {id : ObjectId} {object : Object} {items : List (Key × Tree)}
      {entries : List (String × Tree)} (seen : heap.examine id = .ok object)
      (hasEntries : object.hasEntries = true) (keys : items.map Prod.fst = object.enumerableKeys)
      (each : ∀ item ∈ items, Projects heap (object.valueAt item.1) item.2)
      (gathers : Tree.Gathers items entries) : Projects heap (.object id) (.map entries)

variable {heap : Heap} {root value child : Value} {tree other : Tree}

theorem Reaches.trans (early : heap.Reaches root value) (late : heap.Reaches value child) :
    heap.Reaches root child := by
  induction late with
  | root => exact early
  | held _ holds inductionHypothesis => exact inductionHypothesis.held holds

theorem Reaches.cases_head (reached : heap.Reaches root value) :
    value = root ∨ ∃ child, heap.Holds root child ∧ heap.Reaches child value := by
  induction reached with
  | root => exact .inl rfl
  | held _ holds inductionHypothesis =>
    rcases inductionHypothesis with rfl | ⟨first, holdsFirst, reached⟩
    · exact .inr ⟨_, holds, .root⟩
    · exact .inr ⟨first, holdsFirst, reached.held holds⟩

namespace Projects

/-- A value that has a tree holds something at finitely many levels only. -/
theorem accessible (projects : heap.Projects value tree) :
    Acc (fun child parent => heap.Holds parent child) value := by
  induction projects with
  | @array id array items seen length each inductionHypothesis =>
    refine .intro _ ?_
    rintro _ ⟨seenAgain, listed⟩
    rw [seen] at seenAgain
    cases seenAgain
    obtain ⟨index, inside, rfl⟩ := List.mem_map.mp listed
    rw [List.mem_range, ← length] at inside
    exact inductionHypothesis index inside
  | @entries id object items entries seen hasEntries keys each gathers inductionHypothesis =>
    refine .intro _ ?_
    rintro _ ⟨seenAgain, listed⟩
    rw [seen] at seenAgain
    cases seenAgain
    rw [Object.exportedKeys_eq hasEntries, ← keys] at listed
    obtain ⟨item, member, rfl⟩ := List.mem_map.mp listed
    exact inductionHypothesis item member
  | string seen | map seen | sequence seen =>
    refine .intro _ ?_
    rintro _ ⟨seenAgain, listed⟩
    rw [seen] at seenAgain
    cases seenAgain
    cases listed
  | _ => exact .intro _ fun _ holds => nomatch holds

/-- A cycle would have infinitely many levels. -/
theorem not_reachesCycle (projects : heap.Projects root tree) : ¬heap.ReachesCycle root := by
  rintro ⟨value, reached, circular⟩
  have accessible : Acc (fun child parent => heap.Holds parent child) value := by
    clear circular
    induction reached with
    | root => exact projects.accessible
    | held _ holds inductionHypothesis => exact inductionHypothesis.inv holds
  clear reached
  induction accessible with
  | intro value _ inductionHypothesis =>
    obtain ⟨child, holds, back⟩ := circular
    refine inductionHypothesis child holds ?_
    rcases back.cases_head with rfl | ⟨next, holdsNext, backNext⟩
    · exact ⟨_, holds, .root⟩
    · exact ⟨next, holdsNext, backNext.held holds⟩

theorem of_array {id : ObjectId} {array : ArrayObject} (projects : heap.Projects (.object id) tree)
    (seen : heap.examine id = .ok (.array array)) :
    ∃ items, tree = .list items ∧ items.length = array.length ∧
      ∀ index (inside : index < items.length),
        heap.Projects ((Object.array array).valueAt (.ofIndex (UInt32.ofNat index)))
          items[index] := by
  cases projects with
  | array seenHere length each =>
    rw [seen] at seenHere
    cases seenHere
    exact ⟨_, rfl, length, each⟩
  | entries seenHere hasEntries =>
    rw [seen] at seenHere
    cases seenHere
    cases hasEntries
  | string seenHere | map seenHere | sequence seenHere =>
    rw [seen] at seenHere
    cases seenHere

theorem of_hasEntries {id : ObjectId} {object : Object}
    (projects : heap.Projects (.object id) tree) (seen : heap.examine id = .ok object)
    (hasEntries : object.hasEntries = true) :
    ∃ items entries, tree = .map entries ∧ items.map Prod.fst = object.enumerableKeys ∧
      (∀ item ∈ items, heap.Projects (object.valueAt item.1) item.2) ∧
      Tree.Gathers items entries := by
  cases projects with
  | entries seenHere _ keys each gathers =>
    rw [seen] at seenHere
    cases seenHere
    exact ⟨_, _, rfl, keys, each, gathers⟩
  | string seenHere | map seenHere | sequence seenHere | array seenHere =>
    rw [seen] at seenHere
    cases seenHere
    cases hasEntries

theorem of_leaf {id : ObjectId} {object : Object} (projects : heap.Projects (.object id) tree)
    (seen : heap.examine id = .ok object) :
    match object with
    | .string inner => tree = .text inner.value.toString
    | .map view => tree = view.toTree
    | .sequence view => tree = view.toTree
    | _ => True := by
  cases projects with
  | string seenHere | map seenHere | sequence seenHere | array seenHere =>
    rw [seen] at seenHere
    cases seenHere
    trivial
  | entries seenHere hasEntries =>
    rw [seen] at seenHere
    cases seenHere
    cases object <;> trivial

/-- A value has one tree only. -/
theorem unique (projects : heap.Projects value tree) (projectsOther : heap.Projects value other) :
    tree = other := by
  induction projects generalizing other with
  | string seen | map seen | sequence seen => exact (projectsOther.of_leaf seen).symm
  | @array id array items seen length each inductionHypothesis =>
    obtain ⟨others, rfl, lengthOthers, eachOthers⟩ := projectsOther.of_array seen
    congr 1
    apply List.ext_getElem (length.trans lengthOthers.symm)
    intro index inside insideOthers
    exact inductionHypothesis index inside (eachOthers index insideOthers)
  | @entries id object items entries seen hasEntries keys each gathers inductionHypothesis =>
    obtain ⟨others, entriesOther, rfl, keysOthers, eachOthers, gathersOthers⟩ :=
      projectsOther.of_hasEntries seen hasEntries
    have sameKeys := keys.trans keysOthers.symm
    have same : items = others := by
      apply List.ext_getElem (by simpa using congrArg List.length sameKeys)
      intro index inside insideOthers
      have sameKey : items[index].1 = others[index].1 := by
        simpa [inside, insideOthers] using congrArg (·[index]?) sameKeys
      refine Prod.ext sameKey (inductionHypothesis _ (List.getElem_mem inside) ?_)
      rw [sameKey]
      exact eachOthers _ (List.getElem_mem insideOthers)
    cases same
    rw [gathers.unique gathersOthers]
  | _ => cases projectsOther; rfl

end Projects

end Heap

end ObjectModel
