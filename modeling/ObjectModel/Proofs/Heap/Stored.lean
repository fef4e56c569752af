import ObjectModel.Proofs.Heap.Canonical

/-!
# How properties are stored

A heap is assembled if code has led to it that makes objects by the constructors only.  Whatever its
tables of properties and its arrays store is stored in one way only: a description is kept exactly
where a bare value would not tell all, accessors are never writable, and a function that is missing
is not kept as `undefined`.  So the count of the described elements of an array covers all elements
that must stay.
-/

namespace ObjectModel

theorem Attributes.eq_standard_iff {attributes : Attributes} : attributes = .standard ↔
    attributes.writable = true ∧ attributes.enumerable = true ∧ attributes.configurable = true := by
  cases attributes
  simp [standard]

/-- What is to hold of stored properties. -/
structure Slot.Lawful (slot : Slot) : Prop where
  /-- A value that is described does not have all attributes set. -/
  data : ∀ {value attributes}, slot = .described (.data value attributes) →
    ¬(attributes.writable = true ∧ attributes.enumerable = true ∧ attributes.configurable = true)
  accessor : ∀ {get set attributes}, slot = .described (.accessor get set attributes) →
    attributes.writable = false ∧ get ≠ some .undefined ∧ set ≠ some .undefined
  described_iff : slot.isDescribed = true ↔
    slot.descriptor.attributes ≠ .standard ∨ slot.descriptor.isAccessor = true

theorem Slot.isDescribed_of_fixed {slot : Slot} (fixed : slot.isConfigurable = false) :
    slot.isDescribed = true := by
  cases slot with
  | bare => cases fixed
  | described => rfl

theorem Slot.Canonical.lawful {slot : Slot} (canonical : slot.Canonical) : slot.Lawful := by
  have unset {value : Value} {attributes : Attributes}
      (described : slot = .described (.data value attributes)) : attributes ≠ .standard := by
    rintro rfl
    have stored := canonical.stored
    rw [described] at stored
    cases stored
  refine ⟨fun described => ?data, fun described => ?accessor, ?iff⟩
  case data =>
    rw [← Attributes.eq_standard_iff]
    exact unset described
  case accessor =>
    have proper := canonical.proper
    rw [described] at proper
    exact proper
  case iff =>
    cases slot with
    | bare value => simp [Slot.isDescribed, Slot.descriptor, Descriptor.attributes,
        Descriptor.isAccessor]
    | described descriptor =>
      cases descriptor with
      | data value attributes => exact iff_of_true rfl (.inl (unset rfl))
      | accessor get set attributes => exact iff_of_true rfl (.inr rfl)

namespace Object

/-- What an object stores: what is in its table of properties and, for an array, its elements. -/
inductive Stores : Object → Slot → Prop
  | property {object : Object} {key : Key} {slot : Slot}
      (entry : (key, slot) ∈ object.base.properties.entries) : Stores object slot
  | element {array : ArrayObject} {index : Nat} {slot : Slot}
      (entry : (index, slot) ∈ array.elements.entries) : Stores (.array array) slot

/-- Whether all that an object stores is stored as it should be, and an array counts the elements
that are described and so all that must stay. -/
structure Lawful (object : Object) : Prop where
  slots : ∀ {slot}, object.Stores slot → slot.Lawful
  counted : ∀ {array}, object = .array array →
    array.describedCount = array.elements.entries.countP (fun entry => entry.2.isDescribed) ∧
      ∀ entry ∈ array.elements.entries, entry.2.isConfigurable = false →
        entry.2.isDescribed = true

namespace Canonical

variable {object : Object}

theorem base (canonical : object.Canonical) : object.base.Canonical := by
  cases object with
  | array inner => exact canonical.base
  | _ => exact canonical

theorem lawful (canonical : object.Canonical) : object.Lawful where
  slots := by
    intro slot stores
    cases stores with
    | property entry =>
      exact (canonical.base _ slot (OrderedMap.get?_eq_some_iff.mpr entry)).lawful
    | @element array index _ entry =>
      have found : array.elements.get? index = some slot := by
        rw [← Elements.get?_toSparse, AscendingMap.get?_eq_some_iff, Elements.entries_toSparse]
        exact entry
      exact (canonical.elements index slot found).lawful
  counted := by
    rintro array rfl
    exact ⟨canonical.wellFormed.describedCount_eq, fun _ _ => Slot.isDescribed_of_fixed⟩

end Canonical

end Object

/-- The discipline of code that represents only what the constructors and commands make, and assigns
no impossible length. -/
def Discipline.assembling : Discipline where
  permits := Command.Fits
  admits representation :=
    ∀ heap object, Heap.view? heap representation = some object → object.Built

theorem Discipline.assembling_within :
    Discipline.assembling.Within (.upholding Object.canonicity) where
  permits fits := fits
  admits built heap object viewed := (built heap object viewed).canonical

namespace Heap

/-- The heaps that pieces of such code lead to, one after another. -/
inductive Assembled : Heap → Prop
  | new (policy : Policy) : Assembled (.new policy)
  | ran {before after : Heap} {depth : Nat} {goal : Goal} {code : Code goal}
      {outcome : Except Fault goal.Result} (assembled : Assembled before)
      (obeys : code.Obeys .assembling)
      (ran : (code.run depth).on before = some (outcome, after)) : Assembled after

variable {heap : Heap} {id : ObjectId} {object : Object}

theorem Assembled.upholds (assembled : heap.Assembled) :
    heap.Upholds Object.canonicity := by
  induction assembled with
  | new policy => exact upholds_canonicity_new policy
  | ran _ obeys ran inductionHypothesis =>
    exact inductionHypothesis.run (.mono Discipline.assembling_within _ obeys) ran

/-- In every assembled heap all that an object stores is stored as it should be, and arrays count
the elements that must stay. -/
theorem lawful_of_assembled (assembled : heap.Assembled) (seen : heap.object? id = some object) :
    object.Lawful :=
  (assembled.upholds.holds seen).lawful

/-- Code that makes an array with an element that must stay, and an accessor without functions. -/
def describing : Code (.reply .flag) :=
  .ask (.allocate (.array (.new none {}))) fun id =>
    .ask (.define id (.index 0) { value := some .null, enumerable := some true } true) fun _ =>
      .ask (.define id (.index 1) { get := some .undefined, configurable := some true } true) .give

theorem describing_obeys : describing.Obeys .assembling := by
  have built (heap : Heap) (object : Object)
      (viewed : heap.view? (.array (.new none {})) = some object) : object.Built := by
    cases viewed
    exact @Object.Built.array .empty none {} _ rfl
  refine ⟨⟨trivial, built⟩, fun allocated => ?_⟩
  cases allocated with
  | error fault => trivial
  | ok id =>
    refine ⟨trivial, fun first => ?_⟩
    cases first with
    | error fault => trivial
    | ok done => exact ⟨trivial, fun second => by cases second <;> trivial⟩

/-- Both elements are described and counted, and neither of the functions is stored. -/
theorem lawful_of_assembled_describing :
    ∃ heap array, (describing.run 1).on (new {}) = some (.ok true, heap) ∧
      heap.object? ⟨4⟩ = some (.array array) ∧ array.describedCount = 2 ∧
      array.element? 0 = some (.described (.data .null ⟨false, true, false⟩)) ∧
      array.element? 1 = some (.described (.accessor none none ⟨false, false, true⟩)) ∧
      (Object.array array).Lawful := by
  obtain ⟨heap, array, ran, seen, counted, first, second⟩ :
      ∃ heap array, (describing.run 1).on (new {}) = some (.ok true, heap) ∧
        heap.object? ⟨4⟩ = some (.array array) ∧ array.describedCount = 2 ∧
        array.element? 0 = some (.described (.data .null ⟨false, true, false⟩)) ∧
        array.element? 1 = some (.described (.accessor none none ⟨false, false, true⟩)) :=
    ⟨_, _, rfl, rfl, rfl, rfl, rfl⟩
  have assembled : heap.Assembled := .ran (.new {}) describing_obeys ran
  exact ⟨heap, array, ran, seen, counted, first, second, lawful_of_assembled assembled seen⟩

end Heap

end ObjectModel
