import ObjectModel.Property.Request
import ObjectModel.Proofs.Verdict.Basic

/-!
# Verdicts on definition requests

What becomes of a definition request, in one piece: a named field is taken from the request, a field
that is not named keeps its state, and what a new property lacks is unset.  The tests and edits that
are made one after another when a request is reconciled come to the same.
-/

namespace ObjectModel

namespace Request

/-- Whether a field that the request names, if it does, is a given one. -/
def agrees {α : Type} [BEq α] (named : Option α) (current : α) : Bool :=
  named.all (· == current)

/-- Whether the request leaves a property that is not configurable as it is, but for the value of
a writable one and for making that one read-only. -/
def keeps (request : Request) (current : Descriptor) : Bool :=
  request.configurable != some true && agrees request.enumerable current.isEnumerable &&
    match current with
    | .data value attributes =>
      !request.isAccessor &&
        (attributes.writable || (request.writable != some true && agrees request.value value))
    | .accessor get set _ =>
      !request.isData && (request.get.map functionOf).all (· == get) &&
        (request.set.map functionOf).all (· == set)

def attributesAfter (request : Request) (current : Option Descriptor) : Attributes :=
  let old := (current.map Descriptor.attributes).getD .locked
  let becomesAccessor := request.isAccessor && !(current.any Descriptor.isAccessor)
  { writable := if becomesAccessor then false else request.writable.getD old.writable
    enumerable := request.enumerable.getD old.enumerable
    configurable := request.configurable.getD old.configurable }

def descriptorAfter (request : Request) (current : Option Descriptor) : Descriptor :=
  let attributes := request.attributesAfter current
  if request.isAccessor || (!request.isData && current.any Descriptor.isAccessor) then
    let (get, set) :=
      match current with
      | some (.accessor get set _) => (get, set)
      | _ => (none, none)
    .accessor ((request.get.map functionOf).getD get) ((request.set.map functionOf).getD set)
      attributes
  else
    .data ((request.value.orElse fun _ => current.bind Descriptor.value?).getD .undefined)
      attributes

def slotAfter (request : Request) (current : Option Descriptor) : Slot :=
  .ofDescriptor (request.descriptorAfter current)

end Request

/-- What becomes of a definition request. -/
inductive Resolution
  | stored (slot : Slot)
  | refused (why : Refusal)
  deriving DecidableEq

/-- How a caller hears what became of a request: a refusal is a fault if the caller asked for faults
and no property otherwise. -/
def Resolution.report (strict : Bool) : Resolution → Except Fault (Option Slot)
  | .stored slot => .ok (some slot)
  | .refused why => if strict then .error (.attributeViolation why) else .ok none

/-- Decide a definition request on a property that may exist, of an object that may be
extensible. -/
def resolution (key : Key) (existing : Option Slot) (request : Request) (extensible : Bool) :
    Except Fault Resolution := do
  request.validate
  match existing with
  | none =>
    return if extensible then .stored (request.slotAfter none) else .refused (.notDefinable key)
  | some slot =>
    let current := slot.descriptor
    return if current.isConfigurable || request.keeps current then
      .stored (request.slotAfter (some current))
    else .refused (.redefinition key)

namespace Request

variable {request : Request} {current : Descriptor} {existing : Option Descriptor}

theorem sameFunction_eq (first second : Option Value) :
    sameFunction first second = (first == second) := by
  cases first <;> cases second <;> rfl

theorem any_ne_eq_not_agrees {α : Type} [BEq α] (named : Option α) (value : α) :
    named.any (· != value) = !agrees named value := by
  cases named <;> rfl

/-- The tests for what is fixed let pass exactly what is kept. -/
theorem keeps_eq :
    request.keeps current =
      (request.configurable != some true && !request.enumerable.any (· != current.isEnumerable) &&
        !request.violates current) := by
  unfold keeps
  rw [any_ne_eq_not_agrees, Bool.not_not]
  congr 1
  cases current with
  | data value attributes =>
    have same : (request.value.any fun named => !named.same value) =
        !agrees request.value value := any_ne_eq_not_agrees request.value value
    simp only [violates, same, Bool.not_or, Bool.not_and, Bool.not_not, bne]
  | accessor get set attributes =>
    have same (named current : Option Value) :
        (named.any fun value => !sameFunction (functionOf value) current) =
          !(named.map functionOf).all (· == current) := by
      cases named <;> simp [sameFunction_eq]
    simp only [violates, same, Bool.not_or, Bool.not_not]

/-- Naming the attributes, the value and the functions one after another describes the property as
a request leaves it. -/
theorem descriptor_nameFunctions (unmixed : request.isMixed = false) :
    ((((Draft.ofCurrent existing).nameAttributes request).nameValue request).nameFunctions
      request).descriptor = request.descriptorAfter existing := by
  cases accessor : request.isAccessor with
  | true =>
    have valueless : request.isData = false := by simpa [isMixed, accessor] using unmixed
    have unnamed : request.writable = none := by
      simp only [isData, Bool.or_eq_false_iff, Option.isSome_eq_false_iff,
        Option.isNone_iff_eq_none] at valueless
      exact valueless.2
    rcases existing with _ | ⟨_ | _⟩ <;>
      cases get : request.get <;> cases set : request.set <;>
        simp [Draft.ofCurrent, Draft.nameAttributes, Draft.nameValue, Draft.nameFunctions,
          Draft.descriptor, descriptorAfter, attributesAfter, accessor, valueless, unnamed, get,
          set, Descriptor.attributes, Descriptor.isAccessor, Attributes.locked]
  | false =>
    cases valued : request.isData with
    | true =>
      rcases existing with _ | ⟨_ | _⟩ <;>
        cases value : request.value <;>
          simp [Draft.ofCurrent, Draft.nameAttributes, Draft.nameValue, Draft.nameFunctions,
            Draft.descriptor, descriptorAfter, attributesAfter, accessor, valued, value,
            Descriptor.attributes, Descriptor.isAccessor, Descriptor.value?]
    | false =>
      have unnamed : request.value = none := by
        simp only [isData, Bool.or_eq_false_iff, Option.isSome_eq_false_iff,
          Option.isNone_iff_eq_none] at valued
        exact valued.1
      have functionless : request.get = none ∧ request.set = none := by
        simpa [isAccessor] using accessor
      rcases existing with _ | ⟨_ | _⟩ <;>
        simp [Draft.ofCurrent, Draft.nameAttributes, Draft.nameValue, Draft.nameFunctions,
          Draft.descriptor, descriptorAfter, attributesAfter, accessor, valued, unnamed,
          functionless, Descriptor.attributes, Descriptor.isAccessor, Descriptor.value?]

theorem merge_eq (unmixed : request.isMixed = false) :
    request.merge existing = some (request.slotAfter existing) := by
  unfold merge
  split
  next standard =>
    simp only [isDefaultData, Bool.and_eq_true, Bool.not_eq_true', beq_iff_eq] at standard
    obtain ⟨⟨⟨⟨valued, functionless⟩, writable⟩, enumerable⟩, configurable⟩ := standard
    obtain ⟨value, named⟩ := Option.isSome_iff_exists.mp valued
    have after : request.descriptorAfter existing = .data value .standard := by
      simp [descriptorAfter, attributesAfter, functionless, isData, named, writable, enumerable,
        configurable, Attributes.standard]
    rw [slotAfter, after, named]
    rfl
  next => exact congrArg some (congrArg Slot.ofDescriptor (descriptor_nameFunctions unmixed))

end Request

/-- A request is decided and merged step by step as it is in one piece. -/
theorem reconcile_eq (key : Key) (existing : Option Slot) (request : Request)
    (extensible strict : Bool) :
    reconcile key existing request extensible strict =
      (resolution key existing request extensible).bind (·.report strict) := by
  have refused (why : Refusal) :
      (do discard (reject strict why); return none : Except Fault (Option Slot)) =
        (Resolution.refused why).report strict := by
    cases strict <;> rfl
  simp only [reconcile, resolution, refused]
  cases mixed : request.isMixed with
  | true => simp [Request.validate, mixed, bind, Except.bind]
  | false =>
    simp only [Request.validate, mixed, Bool.false_eq_true, if_false]
    cases existing with
    | none =>
      rw [Request.merge_eq mixed]
      cases extensible <;> rfl
    | some slot =>
      simp only [Request.merge_eq mixed, Request.keeps_eq, bne]
      cases slot.descriptor.isConfigurable with
      | true => rfl
      | false =>
        cases request.configurable == some true <;>
          cases request.enumerable.any (fun named => !named == slot.descriptor.isEnumerable) <;>
            cases request.violates slot.descriptor <;> rfl

end ObjectModel
