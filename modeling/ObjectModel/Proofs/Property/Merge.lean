import ObjectModel.Proofs.Outcome
import ObjectModel.Proofs.Verdict.Property

/-!
# How definition requests merge

Which requests are admitted, and what a property is after one, field by field.  A property that is
not configurable admits only requests that leave it as it is, but for the value of a writable one
and for making that one read-only.  A field that is named is taken from the request, a field that is
not named keeps its state if the kind of the property has it, and is unset otherwise.
-/

namespace ObjectModel

attribute [ext] Attributes

namespace Descriptor

def get? : Descriptor → Option Value
  | .data .. => none
  | .accessor get _ _ => get

def set? : Descriptor → Option Value
  | .data .. => none
  | .accessor _ set _ => set

/-- Whether a description is as those of properties are: accessors are not writable, and none of
their functions is `undefined`. -/
def Proper : Descriptor → Prop
  | .data .. => True
  | .accessor get set attributes =>
    attributes.writable = false ∧ get ≠ some .undefined ∧ set ≠ some .undefined

theorem Proper.get?_ne {descriptor : Descriptor} (proper : descriptor.Proper) :
    descriptor.get? ≠ some .undefined := by
  cases descriptor with
  | data => intro equal; cases equal
  | accessor => exact proper.2.1

theorem Proper.set?_ne {descriptor : Descriptor} (proper : descriptor.Proper) :
    descriptor.set? ≠ some .undefined := by
  cases descriptor with
  | data => intro equal; cases equal
  | accessor => exact proper.2.2

end Descriptor

/-- What a value stands for where a function is named: `undefined` for no function, and any other
value for itself. -/
inductive Value.StandsFor : Value → Option Value → Prop
  | nothing : StandsFor .undefined none
  | function {value : Value} (defined : value ≠ .undefined) : StandsFor value (some value)

theorem Value.StandsFor.ne_undefined {value : Value} {function : Option Value}
    (stands : value.StandsFor function) : function ≠ some .undefined := by
  cases stands with
  | nothing => nofun
  | function defined => exact fun same => defined (Option.some.inj same)

theorem functionOf_eq_iff {value : Value} {function : Option Value} :
    functionOf value = function ↔ value.StandsFor function := by
  constructor
  · rintro rfl
    cases value with
    | undefined => exact .nothing
    | _ => exact .function nofun
  · intro stands
    cases stands with
    | nothing => rfl
    | function defined =>
      cases value with
      | undefined => exact absurd rfl defined
      | _ => rfl

/-- What becomes of a function when a field names another one, or none is named. -/
inductive FunctionAfter (old : Option Value) : Option Value → Option Value → Prop
  | named {value : Value} {function : Option Value} (stands : value.StandsFor function) :
      FunctionAfter old (some value) function
  | kept : FunctionAfter old none old

theorem functionAfter_iff {old named function : Option Value} :
    FunctionAfter old named function ↔ function = (named.map functionOf).getD old := by
  cases named with
  | none =>
    constructor
    · intro after
      cases after
      rfl
    · rintro rfl
      exact .kept
  | some value =>
    constructor
    · rintro ⟨stands⟩
      exact (functionOf_eq_iff.mpr stands).symm
    · rintro rfl
      exact .named (functionOf_eq_iff.mp rfl)

theorem FunctionAfter.standsFor {old named function : Option Value} {value : Value}
    (after : FunctionAfter old named function) (isNamed : named = some value) :
    value.StandsFor function := by
  subst isNamed
  cases after with
  | named stands => exact stands

theorem FunctionAfter.eq_of_unnamed {old named function : Option Value}
    (after : FunctionAfter old named function) (unnamed : named = none) : function = old := by
  subst unnamed
  cases after
  rfl

theorem FunctionAfter.ne_undefined {old named function : Option Value}
    (after : FunctionAfter old named function) (proper : old ≠ some .undefined) :
    function ≠ some .undefined := by
  cases after with
  | named stands => exact stands.ne_undefined
  | kept => exact proper

/-- How a property is stored: bare if it is a value with all attributes set, and with its
description otherwise. -/
inductive Slot.Stores : Slot → Descriptor → Prop
  | bare (value : Value) : Stores (.bare value) (.data value ⟨true, true, true⟩)
  | described {descriptor : Descriptor}
      (special : ∀ value, descriptor ≠ .data value ⟨true, true, true⟩) :
      Stores (.described descriptor) descriptor

theorem Slot.Stores.descriptor_eq {slot : Slot} {descriptor : Descriptor}
    (stores : slot.Stores descriptor) : slot.descriptor = descriptor := by
  cases stores <;> rfl

theorem Slot.stores_iff {slot : Slot} {descriptor : Descriptor} :
    slot.Stores descriptor ↔ slot = .ofDescriptor descriptor := by
  constructor
  · intro stores
    cases stores with
    | bare value => rfl
    | described special =>
      cases descriptor with
      | data value attributes =>
        exact (if_neg fun isStandard => special value (congrArg _ isStandard)).symm
      | accessor => rfl
  · rintro rfl
    cases descriptor with
    | data value attributes =>
      by_cases isStandard : attributes = .standard
      · subst isStandard
        exact .bare value
      · rw [Slot.ofDescriptor, if_neg isStandard]
        refine .described fun other same => isStandard ?_
        cases same
        rfl
    | accessor =>
      refine .described fun value same => ?_
      cases same

namespace Request

/-- Whether a request names a field that only data has. -/
def NamesData (request : Request) : Prop := request.value ≠ none ∨ request.writable ≠ none

/-- Whether a request names a field that only accessors have. -/
def NamesFunction (request : Request) : Prop := request.get ≠ none ∨ request.set ≠ none

/-- Whether a request names fields that no property has together. -/
def Mixes (request : Request) : Prop := request.NamesData ∧ request.NamesFunction

/-- Whether a request does not touch what is fixed about the value or the functions of a property
that is not configurable. -/
inductive Spares (request : Request) : Descriptor → Prop
  | generic {current : Descriptor} (valueless : ¬request.NamesData)
      (functionless : ¬request.NamesFunction) : Spares request current
  | data {value : Value} {attributes : Attributes} (namesData : request.NamesData)
      (functionless : ¬request.NamesFunction)
      (free : attributes.writable = true ∨ request.writable ≠ some true ∧
        ∀ named, request.value = some named → named = value) :
      Spares request (.data value attributes)
  | accessor {get set : Option Value} {attributes : Attributes} (valueless : ¬request.NamesData)
      (namesFunction : request.NamesFunction)
      (sameGet : ∀ named, request.get = some named → named.StandsFor get)
      (sameSet : ∀ named, request.set = some named → named.StandsFor set) :
      Spares request (.accessor get set attributes)

/-- Whether a request for a property that may exist is admitted. -/
inductive Admitted (request : Request) (extensible : Bool) : Option Descriptor → Prop
  | new (isExtensible : extensible = true) : Admitted request extensible none
  | configurable {current : Descriptor} (isConfigurable : current.attributes.configurable = true) :
      Admitted request extensible (some current)
  | locked {current : Descriptor} (isLocked : current.attributes.configurable = false)
      (configurable : request.configurable ≠ some true)
      (enumerable : ∀ named, request.enumerable = some named →
        named = current.attributes.enumerable)
      (spares : request.Spares current) : Admitted request extensible (some current)

/-- Whether a description is what a request makes of a property that may exist. -/
structure MergesInto (request : Request) (current : Option Descriptor) (merged : Descriptor) :
    Prop where
  isData : request.NamesData → merged.isAccessor = false
  isAccessor : request.NamesFunction → merged.isAccessor = true
  isGeneric : ¬request.NamesData → ¬request.NamesFunction →
    merged.isAccessor = current.any Descriptor.isAccessor
  value : merged.isAccessor = false →
    merged.value? = some ((request.value.or (current.bind Descriptor.value?)).getD .undefined)
  get : merged.isAccessor = true →
    FunctionAfter (current.bind Descriptor.get?) request.get merged.get?
  set : merged.isAccessor = true →
    FunctionAfter (current.bind Descriptor.set?) request.set merged.set?
  writable : merged.attributes.writable =
    (!merged.isAccessor && request.writable.getD (current.any Descriptor.isWritable))
  enumerable : merged.attributes.enumerable =
    request.enumerable.getD (current.any fun old => old.attributes.enumerable)
  configurable : merged.attributes.configurable =
    request.configurable.getD (current.any fun old => old.attributes.configurable)

variable {request : Request} {current : Descriptor} {existing : Option Descriptor}

theorem agrees_iff {α : Type} [BEq α] [LawfulBEq α] {named : Option α} {value : α} :
    agrees named value = true ↔ ∀ other, named = some other → other = value := by
  simp [agrees, Option.all_eq_true]

theorem isData_iff : request.isData = true ↔ request.NamesData := by
  simp [isData, NamesData, Option.isSome_iff_ne_none]

theorem isAccessor_iff : request.isAccessor = true ↔ request.NamesFunction := by
  simp [isAccessor, NamesFunction, Option.isSome_iff_ne_none]

theorem isData_eq_false : request.isData = false ↔ ¬request.NamesData := by
  rw [← isData_iff, Bool.not_eq_true]

theorem isAccessor_eq_false : request.isAccessor = false ↔ ¬request.NamesFunction := by
  rw [← isAccessor_iff, Bool.not_eq_true]

theorem isMixed_iff : request.isMixed = true ↔ request.Mixes := by
  rw [isMixed, Bool.and_eq_true, isData_iff, isAccessor_iff, Mixes]

theorem isMixed_eq_false : request.isMixed = false ↔ ¬request.Mixes := by
  rw [← isMixed_iff, Bool.not_eq_true]

theorem isData_eq_false_iff :
    request.isData = false ↔ request.value = none ∧ request.writable = none := by
  simp [isData]

theorem isAccessor_eq_false_iff :
    request.isAccessor = false ↔ request.get = none ∧ request.set = none := by
  simp [isAccessor]

theorem isMixed_eq_false_iff :
    request.isMixed = false ↔ request.isData = false ∨ request.isAccessor = false := by
  simp only [isMixed, Bool.and_eq_false_iff]

/-- What is checked of a request for a property that is not configurable is what it must keep. -/
theorem keeps_iff :
    request.keeps current = true ↔ request.configurable ≠ some true ∧
      (∀ named, request.enumerable = some named → named = current.isEnumerable) ∧
      request.Spares current := by
  simp only [keeps, Bool.and_eq_true, bne_iff_ne, agrees_iff, and_assoc]
  refine and_congr_right fun _ => and_congr_right fun _ => ?_
  cases current with
  | data value attributes =>
    simp only [Bool.and_eq_true, Bool.not_eq_true', Bool.or_eq_true, bne_iff_ne, agrees_iff]
    constructor
    · rintro ⟨functionless, free⟩
      rw [isAccessor_eq_false] at functionless
      by_cases namesData : request.NamesData
      · exact .data namesData functionless free
      · exact .generic namesData functionless
    · intro spares
      cases spares with
      | generic valueless functionless =>
        simp [isAccessor_eq_false.mpr functionless,
          isData_eq_false_iff.mp (isData_eq_false.mpr valueless)]
      | data _ functionless free => exact ⟨isAccessor_eq_false.mpr functionless, free⟩
  | accessor get set attributes =>
    simp only [Bool.and_eq_true, Bool.not_eq_true', Option.all_eq_true, Option.map_eq_some_iff,
      forall_exists_index, and_imp, forall_apply_eq_imp_iff₂, beq_iff_eq]
    constructor
    · rintro ⟨⟨valueless, sameGet⟩, sameSet⟩
      rw [isData_eq_false] at valueless
      by_cases namesFunction : request.NamesFunction
      · exact .accessor valueless namesFunction
          (fun named isNamed => functionOf_eq_iff.mp (sameGet named isNamed))
          fun named isNamed => functionOf_eq_iff.mp (sameSet named isNamed)
      · exact .generic valueless namesFunction
    · intro spares
      cases spares with
      | generic valueless functionless =>
        simp [isData_eq_false.mpr valueless,
          isAccessor_eq_false_iff.mp (isAccessor_eq_false.mpr functionless)]
      | accessor valueless _ sameGet sameSet =>
        exact ⟨⟨isData_eq_false.mpr valueless,
          fun named isNamed => functionOf_eq_iff.mpr (sameGet named isNamed)⟩,
          fun named isNamed => functionOf_eq_iff.mpr (sameSet named isNamed)⟩

theorem admitted_some_iff {extensible : Bool} :
    request.Admitted extensible (some current) ↔
      (current.isConfigurable || request.keeps current) = true := by
  rw [Bool.or_eq_true, keeps_iff]
  constructor
  · intro admitted
    cases admitted with
    | configurable isConfigurable => exact .inl isConfigurable
    | locked _ configurable enumerable spares => exact .inr ⟨configurable, enumerable, spares⟩
  · intro allowed
    cases isConfigurable : current.isConfigurable with
    | true => exact .configurable isConfigurable
    | false =>
      rw [isConfigurable] at allowed
      obtain ⟨configurable, enumerable, spares⟩ := allowed.resolve_left Bool.false_ne_true
      exact .locked isConfigurable configurable enumerable spares

section Merging

variable (request existing)

theorem isAccessor_descriptorAfter :
    (request.descriptorAfter existing).isAccessor =
      (request.isAccessor || !request.isData && existing.any Descriptor.isAccessor) := by
  unfold descriptorAfter
  split
  next accessor => exact accessor.symm
  next valued => exact (Bool.not_eq_true _ ▸ valued).symm

theorem attributes_descriptorAfter :
    (request.descriptorAfter existing).attributes = request.attributesAfter existing := by
  unfold descriptorAfter
  split <;> rfl

variable {request existing}

theorem value?_descriptorAfter (valued : (request.descriptorAfter existing).isAccessor = false) :
    (request.descriptorAfter existing).value? =
      some ((request.value.or (existing.bind Descriptor.value?)).getD .undefined) := by
  rw [isAccessor_descriptorAfter] at valued
  simp [descriptorAfter, valued, Descriptor.value?]

theorem functions_descriptorAfter
    (accessor : (request.descriptorAfter existing).isAccessor = true) :
    (request.descriptorAfter existing).get? =
        (request.get.map functionOf).getD (existing.bind Descriptor.get?) ∧
      (request.descriptorAfter existing).set? =
        (request.set.map functionOf).getD (existing.bind Descriptor.set?) := by
  rw [isAccessor_descriptorAfter] at accessor
  simp only [descriptorAfter, accessor, if_true, Descriptor.get?, Descriptor.set?]
  rcases existing with _ | ⟨_ | _⟩ <;> exact ⟨rfl, rfl⟩

theorem writable_attributesAfter (unmixed : request.isMixed = false)
    (proper : ∀ descriptor, existing = some descriptor → descriptor.Proper) :
    (request.attributesAfter existing).writable =
      (!(request.isAccessor || !request.isData && existing.any Descriptor.isAccessor) &&
        request.writable.getD (existing.any Descriptor.isWritable)) := by
  rcases existing with _ | ⟨_ | ⟨get, set, attributes⟩⟩
  · cases accessor : request.isAccessor <;> simp [attributesAfter, accessor, Attributes.locked]
  · cases accessor : request.isAccessor <;>
      simp [attributesAfter, accessor, Descriptor.isAccessor, Descriptor.attributes,
        Descriptor.isWritable]
  · -- An accessor is read-only, and what makes it writable makes it a value as well.
    have readOnly := (proper _ rfl).1
    cases valued : request.isData with
    | true =>
      have functionless := (isMixed_eq_false_iff.mp unmixed).resolve_left (by simp [valued])
      simp [attributesAfter, functionless, Descriptor.isAccessor, Descriptor.attributes, readOnly,
        Descriptor.isWritable]
    | false =>
      simp [attributesAfter, Descriptor.isAccessor, Descriptor.attributes, readOnly,
        (isData_eq_false_iff.mp valued).2]

/-- What a request that is not mixed makes of a property: each field follows its own rule. -/
theorem mergesInto_descriptorAfter (unmixed : request.isMixed = false)
    (proper : ∀ descriptor, existing = some descriptor → descriptor.Proper) :
    request.MergesInto existing (request.descriptorAfter existing) where
  isData named := by
    rw [← isData_iff] at named
    have functionless := (isMixed_eq_false_iff.mp unmixed).resolve_left (by simp [named])
    rw [isAccessor_descriptorAfter, functionless, named]
    rfl
  isAccessor named := by rw [isAccessor_descriptorAfter, isAccessor_iff.mpr named, Bool.true_or]
  isGeneric valueless functionless := by
    rw [isAccessor_descriptorAfter, isData_eq_false.mpr valueless,
      isAccessor_eq_false.mpr functionless]
    rfl
  value := value?_descriptorAfter
  get accessor := functionAfter_iff.mpr (functions_descriptorAfter accessor).1
  set accessor := functionAfter_iff.mpr (functions_descriptorAfter accessor).2
  writable := by
    rw [attributes_descriptorAfter, isAccessor_descriptorAfter]
    exact writable_attributesAfter unmixed proper
  enumerable := by
    rw [attributes_descriptorAfter]
    cases existing <;> rfl
  configurable := by
    rw [attributes_descriptorAfter]
    cases existing <;> rfl

end Merging

namespace MergesInto

variable {merged other : Descriptor}

/-- A request says all there is to say of a property after it. -/
theorem unique (first : request.MergesInto existing merged)
    (second : request.MergesInto existing other) : merged = other := by
  have sameKind : merged.isAccessor = other.isAccessor := by
    by_cases valued : request.NamesData
    · rw [first.isData valued, second.isData valued]
    · by_cases accessor : request.NamesFunction
      · rw [first.isAccessor accessor, second.isAccessor accessor]
      · rw [first.isGeneric valued accessor, second.isGeneric valued accessor]
  have sameAttributes : merged.attributes = other.attributes := by
    have writable := first.writable
    rw [sameKind, ← second.writable] at writable
    have enumerable := first.enumerable.trans second.enumerable.symm
    have configurable := first.configurable.trans second.configurable.symm
    exact Attributes.ext writable enumerable configurable
  cases merged with
  | data value attributes =>
    cases other with
    | data otherValue otherAttributes =>
      cases sameAttributes
      cases (first.value rfl).trans (second.value rfl).symm
      rfl
    | accessor => cases sameKind
  | accessor get set attributes =>
    cases other with
    | data => cases sameKind
    | accessor otherGet otherSet otherAttributes =>
      cases sameAttributes
      have sameGet := (functionAfter_iff.mp (first.get rfl)).trans
        (functionAfter_iff.mp (second.get rfl)).symm
      have sameSet := (functionAfter_iff.mp (first.set rfl)).trans
        (functionAfter_iff.mp (second.set rfl)).symm
      cases sameGet
      cases sameSet
      rfl

theorem proper (merges : request.MergesInto existing merged)
    (properBefore : ∀ descriptor, existing = some descriptor → descriptor.Proper) :
    merged.Proper := by
  cases merged with
  | data => trivial
  | accessor get set attributes =>
    refine ⟨merges.writable, (merges.get rfl).ne_undefined ?_, (merges.set rfl).ne_undefined ?_⟩
    · intro isUndefined
      obtain ⟨descriptor, rfl, isGet⟩ := Option.bind_eq_some_iff.mp isUndefined
      exact (properBefore descriptor rfl).get?_ne isGet
    · intro isUndefined
      obtain ⟨descriptor, rfl, isSet⟩ := Option.bind_eq_some_iff.mp isUndefined
      exact (properBefore descriptor rfl).set?_ne isSet

end MergesInto

end Request

section Deciding

variable {key : Key} {request : Request} {existing : Option Slot} {extensible : Bool}

theorem resolution_mixed (mixed : request.isMixed = true) :
    resolution key existing request extensible = .error (.typeMismatch .mixedRequest) := by
  simp only [resolution, Request.validate, mixed]
  rfl

theorem resolution_admitted (unmixed : request.isMixed = false)
    (admitted : request.Admitted extensible (existing.map Slot.descriptor)) :
    resolution key existing request extensible =
      .ok (.stored (request.slotAfter (existing.map Slot.descriptor))) := by
  simp only [resolution, Request.validate, unmixed]
  cases existing with
  | none =>
    cases admitted with
    | new isExtensible => rw [isExtensible]; rfl
  | some slot =>
    have allowed := Request.admitted_some_iff.mp admitted
    exact congrArg Except.ok (if_pos allowed)

/-- Why a property may not be defined: a new one is refused for the object, another for itself. -/
def refusalOf (key : Key) : Option Slot → Refusal
  | none => .notDefinable key
  | some _ => .redefinition key

theorem resolution_refused (unmixed : request.isMixed = false)
    (refused : ¬request.Admitted extensible (existing.map Slot.descriptor)) :
    resolution key existing request extensible = .ok (.refused (refusalOf key existing)) := by
  simp only [resolution, Request.validate, unmixed]
  cases existing with
  | none =>
    cases extensible with
    | true => exact absurd (.new rfl) refused
    | false => rfl
  | some slot =>
    have forbidden := fun allowed => refused (Request.admitted_some_iff.mpr allowed)
    exact congrArg Except.ok (if_neg forbidden)

/-- A request stores something exactly if it is not mixed and admitted. -/
theorem resolution_eq_stored_iff {slot : Slot} :
    resolution key existing request extensible = .ok (.stored slot) ↔
      request.isMixed = false ∧ request.Admitted extensible (existing.map Slot.descriptor) ∧
        slot = request.slotAfter (existing.map Slot.descriptor) := by
  cases mixed : request.isMixed with
  | true =>
    rw [resolution_mixed mixed]
    exact iff_of_false nofun nofun
  | false =>
    by_cases admitted : request.Admitted extensible (existing.map Slot.descriptor)
    · rw [resolution_admitted mixed admitted]
      simp [admitted, eq_comm]
    · rw [resolution_refused mixed admitted]
      exact iff_of_false nofun fun both => admitted both.2.1

theorem eq_slotAfter_iff (unmixed : request.isMixed = false)
    (proper : ∀ slot, existing = some slot → slot.descriptor.Proper) {slot : Slot} :
    slot = request.slotAfter (existing.map Slot.descriptor) ↔
      ∃ merged, request.MergesInto (existing.map Slot.descriptor) merged ∧ slot.Stores merged := by
  have merges := request.mergesInto_descriptorAfter unmixed
    fun descriptor (found : existing.map Slot.descriptor = some descriptor) => by
      obtain ⟨current, isCurrent, rfl⟩ := Option.map_eq_some_iff.mp found
      exact proper current isCurrent
  constructor
  · rintro rfl
    exact ⟨_, merges, Slot.stores_iff.mpr rfl⟩
  · rintro ⟨merged, mergesToo, stored⟩
    rw [Slot.stores_iff.mp stored, Request.slotAfter, mergesToo.unique merges]

variable (key request existing extensible) in
/-- Whether a caller hears of a request what the rules say: one that mixes fields is a fault, one
that is not admitted is refused, and any other yields what it makes of the property. -/
structure FollowsRules (strict : Bool) (reported : Except Fault (Option Slot)) : Prop where
  mixed : request.Mixes → reported = .error (.typeMismatch .mixedRequest)
  yields : ¬request.Mixes → ((∃ slot, reported = .ok (some slot)) ↔
    request.Admitted extensible (existing.map Slot.descriptor))
  merged : ¬request.Mixes → ∀ slot, (reported = .ok (some slot) ↔
    request.Admitted extensible (existing.map Slot.descriptor) ∧
      ∃ merged, request.MergesInto (existing.map Slot.descriptor) merged ∧ slot.Stores merged)
  refused : ¬request.Mixes →
    ¬request.Admitted extensible (existing.map Slot.descriptor) →
    reported = if strict then .error (.attributeViolation (refusalOf key existing)) else .ok none

theorem bind_report_eq_ok_some_iff {outcome : Except Fault Resolution} {strict : Bool}
    {slot : Slot} :
    outcome.bind (·.report strict) = .ok (some slot) ↔ outcome = .ok (.stored slot) := by
  rcases outcome with fault | stored | why
  · exact iff_of_false nofun nofun
  · exact ⟨fun heard => by cases heard; rfl, fun heard => by cases heard; rfl⟩
  · cases strict <;> exact iff_of_false nofun nofun

/-- Whatever property there is, as long as it is described as properties are, every request for it
is decided by the rules, and no rule leaves a choice. -/
theorem definitions_follow_rules
    (proper : ∀ slot, existing = some slot → slot.descriptor.Proper) (key : Key)
    (request : Request) (extensible strict : Bool) :
    FollowsRules key request existing extensible strict
      (reconcile key existing request extensible strict) where
  mixed mixes := by
    rw [reconcile_eq, resolution_mixed (Request.isMixed_iff.mpr mixes)]
    rfl
  yields unmixed := by
    simp only [reconcile_eq, bind_report_eq_ok_some_iff, resolution_eq_stored_iff]
    constructor
    · rintro ⟨_, _, admitted, _⟩
      exact admitted
    · intro admitted
      exact ⟨_, Request.isMixed_eq_false.mpr unmixed, admitted, rfl⟩
  merged unmixed slot := by
    have separate := Request.isMixed_eq_false.mpr unmixed
    rw [reconcile_eq, bind_report_eq_ok_some_iff, resolution_eq_stored_iff,
      eq_slotAfter_iff separate proper]
    exact and_iff_right separate
  refused unmixed refused := by
    rw [reconcile_eq, resolution_refused (Request.isMixed_eq_false.mpr unmixed) refused]
    rfl

/-- A value that is locked but writable may be made read-only, and is then not overwritten with
another one: NaN is the same as NaN, but not as `undefined`. -/
theorem definitions_follow_rules_locked :
    let key := Key.ofText (.ofString "k")
    let locked := Slot.described (.data (.number .nan) ⟨true, false, false⟩)
    let closing : Request := { value := some (.number .nan), writable := some false }
    let closed := Slot.described (.data (.number .nan) .locked)
    let clearing : Request := { value := some .undefined }
    closing.Admitted false (some locked.descriptor) ∧
      closing.MergesInto (some locked.descriptor) closed.descriptor ∧
      ¬clearing.Admitted false (some closed.descriptor) ∧
      reconcile key (some closed) clearing false true =
        .error (.attributeViolation (.redefinition key)) := by
  intro key locked closing closed clearing
  have proper {value : Value} {attributes : Attributes} :
      ∀ slot, some (Slot.described (.data value attributes)) = some slot →
        slot.descriptor.Proper := by
    rintro _ ⟨⟩
    trivial
  have rules := definitions_follow_rules (proper : ∀ slot, some locked = some slot → _) key closing
    false true
  have rulesAfter := definitions_follow_rules (proper : ∀ slot, some closed = some slot → _) key
    clearing false true
  have separate {request : Request} (functionless : request.isAccessor = false) :
      ¬request.Mixes := fun mixes => Request.isAccessor_eq_false.mp functionless mixes.2
  obtain ⟨admitted, merged, merges, stores⟩ := (rules.merged (separate rfl) closed).mp rfl
  have refused : ¬clearing.Admitted false (some closed.descriptor) :=
    fun admitted => by
      obtain ⟨slot, heard⟩ := (rulesAfter.yields (separate rfl)).mpr admitted
      cases heard
  have merged_eq : merged = closed.descriptor := stores.descriptor_eq.symm
  rw [merged_eq] at merges
  exact ⟨admitted, merges, refused, rulesAfter.refused (separate rfl) refused⟩

end Deciding

end ObjectModel
