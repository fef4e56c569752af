import ObjectModel.Proofs.Verdict.Property
import ObjectModel.Proofs.Outcome

/-!
# What may become of a property

A property that is not configurable stays, and is described the same way ever after; only the value
of a writable one may change, until it becomes read-only.  Overwriting and defining respect that.
-/

namespace ObjectModel

/-- What a description that is not configurable may become: as a value it may change while it is
writable, and be made read-only; nothing else about it changes. -/
inductive Descriptor.KeptAs : Descriptor → Descriptor → Prop
  | data {value newValue : Value} {writable newWritable enumerable : Bool}
      (frozen : writable = false → newWritable = false ∧ newValue = value) :
      KeptAs (.data value ⟨writable, enumerable, false⟩)
        (.data newValue ⟨newWritable, enumerable, false⟩)
  | accessor {get set : Option Value} {writable newWritable enumerable : Bool} :
      KeptAs (.accessor get set ⟨writable, enumerable, false⟩)
        (.accessor get set ⟨newWritable, enumerable, false⟩)

namespace Descriptor.KeptAs

variable {first second third : Descriptor}

theorem refl (fixed : first.isConfigurable = false) : first.KeptAs first := by
  cases first with
  | data value attributes =>
    obtain ⟨writable, enumerable, configurable⟩ := attributes
    cases fixed
    exact .data fun readOnly => ⟨readOnly, rfl⟩
  | accessor get set attributes =>
    obtain ⟨writable, enumerable, configurable⟩ := attributes
    cases fixed
    exact .accessor

theorem isConfigurable (kept : first.KeptAs second) : second.isConfigurable = false := by
  cases kept <;> rfl

theorem trans (before : first.KeptAs second) (after : second.KeptAs third) :
    first.KeptAs third := by
  cases before with
  | data frozen =>
    cases after with
    | data frozenAfter =>
      apply KeptAs.data
      intro readOnly
      obtain ⟨readOnlyBetween, sameValue⟩ := frozen readOnly
      obtain ⟨readOnlyAfter, sameValueAfter⟩ := frozenAfter readOnlyBetween
      exact ⟨readOnlyAfter, sameValueAfter.trans sameValue⟩
  | accessor =>
    cases after with
    | accessor => exact .accessor

theorem eq_of_readOnly {value : Value} {enumerable : Bool}
    (kept : (Descriptor.data value ⟨false, enumerable, false⟩).KeptAs second) :
    second = .data value ⟨false, enumerable, false⟩ := by
  cases kept with
  | data frozen =>
    obtain ⟨rfl, rfl⟩ := frozen rfl
    rfl

end Descriptor.KeptAs

namespace Slot

/-- What an object may hold at a key after it held something else there: a property that is not
configurable is kept, and what is absent stays absent unless the object is extensible. -/
structure Succeeds (extensible : Bool) (before after : Option Slot) : Prop where
  kept : ∀ slot, before = some slot → slot.isConfigurable = false →
    ∃ next, after = some next ∧ slot.descriptor.KeptAs next.descriptor
  absent : before = none → extensible = false → after = none

namespace Succeeds

variable {extensible : Bool} {first second third : Option Slot}

theorem refl (extensible : Bool) (first : Option Slot) : Succeeds extensible first first where
  kept slot found fixed := ⟨slot, found, .refl fixed⟩
  absent none _ := none

theorem trans {extensibleBetween : Bool} (before : Succeeds extensible first second)
    (after : Succeeds extensibleBetween second third)
    (closed : extensible = false → extensibleBetween = false) :
    Succeeds extensible first third where
  kept slot found fixed := by
    obtain ⟨between, foundBetween, keptBetween⟩ := before.kept slot found fixed
    obtain ⟨next, foundNext, keptNext⟩ :=
      after.kept between foundBetween keptBetween.isConfigurable
    exact ⟨next, foundNext, keptBetween.trans keptNext⟩
  absent none inextensible :=
    after.absent (before.absent none inextensible) (closed inextensible)

theorem of_isConfigurable {slot : Slot} (configurable : slot.isConfigurable = true)
    (after : Option Slot) : Succeeds extensible (some slot) after where
  kept other found fixed := by
    cases found
    rw [configurable] at fixed
    cases fixed
  absent none := by cases none

theorem of_extensible (after : Option Slot) : Succeeds true none after where
  kept slot found := by cases found
  absent _ inextensible := by cases inextensible

theorem of_keptAs {slot next : Slot} (kept : slot.descriptor.KeptAs next.descriptor) :
    Succeeds extensible (some slot) (some next) where
  kept other found _ := by
    cases found
    exact ⟨next, rfl, kept⟩
  absent none := by cases none

end Succeeds

theorem succeeds_write? {slot written : Slot} {value : Value}
    (overwritten : slot.write? value = some written) (extensible : Bool) :
    Succeeds extensible (some slot) (some written) := by
  cases slot with
  | bare old => exact .of_isConfigurable rfl _
  | described descriptor =>
    cases descriptor with
    | data old attributes =>
      simp only [write?] at overwritten
      split at overwritten
      next writable =>
        cases overwritten
        obtain ⟨isWritable, enumerable, configurable⟩ := attributes
        cases configurable with
        | true => exact .of_isConfigurable rfl _
        | false =>
          apply Succeeds.of_keptAs
          apply Descriptor.KeptAs.data
          intro readOnly
          rw [readOnly] at writable
          cases writable
      next => cases overwritten
    | accessor get set attributes => cases overwritten

end Slot

namespace Request

variable {request : Request} {current : Descriptor}

theorem getD_of_agrees {α : Type} [BEq α] [LawfulBEq α] {named : Option α} {value : α}
    (agree : agrees named value = true) : named.getD value = value := by
  cases named with
  | none => rfl
  | some other => exact eq_of_beq agree

theorem getD_of_ne_true {named : Option Bool} (unset : (named != some true) = true) :
    named.getD false = false := by
  rcases named with _ | _ | _
  · rfl
  · rfl
  · cases unset

theorem keptAs_descriptorAfter (fixed : current.isConfigurable = false)
    (keeps : request.keeps current = true) :
    current.KeptAs (request.descriptorAfter (some current)) := by
  simp only [Request.keeps, Bool.and_eq_true] at keeps
  obtain ⟨⟨unconfigurable, listed⟩, rest⟩ := keeps
  have configurableAfter := getD_of_ne_true unconfigurable
  have enumerableAfter := getD_of_agrees listed
  cases current with
  | data value attributes =>
    obtain ⟨writable, enumerable, configurable⟩ := attributes
    cases fixed
    simp only [Bool.and_eq_true, Bool.not_eq_true', Bool.or_eq_true] at rest
    obtain ⟨valued, free⟩ := rest
    have after : request.descriptorAfter (some (.data value ⟨writable, enumerable, false⟩)) =
        .data (request.value.getD value) ⟨request.writable.getD writable, enumerable, false⟩ := by
      simp only [Descriptor.isEnumerable, Descriptor.attributes] at enumerableAfter
      cases named : request.value <;>
        simp [descriptorAfter, attributesAfter, valued, named, Descriptor.attributes,
          Descriptor.isAccessor, Descriptor.value?, configurableAfter, enumerableAfter]
    rw [after]
    apply Descriptor.KeptAs.data
    intro readOnly
    rw [readOnly] at free ⊢
    rcases free with writable | ⟨unwritable, sameValue⟩
    · cases writable
    · exact ⟨getD_of_ne_true unwritable, getD_of_agrees sameValue⟩
  | accessor get set attributes =>
    obtain ⟨writable, enumerable, configurable⟩ := attributes
    cases fixed
    simp only [Bool.and_eq_true, Bool.not_eq_true'] at rest
    obtain ⟨⟨valueless, sameGet⟩, sameSet⟩ := rest
    have getAfter : (request.get.map functionOf).getD get = get := getD_of_agrees sameGet
    have setAfter : (request.set.map functionOf).getD set = set := getD_of_agrees sameSet
    have after : ∃ newWritable, request.descriptorAfter
        (some (.accessor get set ⟨writable, enumerable, false⟩)) =
        .accessor get set ⟨newWritable, enumerable, false⟩ := by
      simp only [Descriptor.isEnumerable, Descriptor.attributes] at enumerableAfter
      simp [descriptorAfter, attributesAfter, valueless, getAfter, setAfter,
        Descriptor.attributes, Descriptor.isAccessor, configurableAfter, enumerableAfter]
    obtain ⟨newWritable, equal⟩ := after
    rw [equal]
    exact .accessor

end Request

/-- What a request stores may succeed what there was. -/
theorem succeeds_resolution {key : Key} {existing : Option Slot} {request : Request}
    {extensible : Bool} {slot : Slot}
    (decided : resolution key existing request extensible = .ok (.stored slot)) :
    Slot.Succeeds extensible existing (some slot) := by
  obtain ⟨_, _, decided⟩ := exists_of_bind_eq_ok decided
  cases existing with
  | none =>
    cases extensible with
    | true => exact .of_extensible _
    | false => cases decided
  | some old =>
    have resolved := Except.ok.inj decided
    split at resolved
    next allowed =>
      cases resolved
      cases configurable : old.isConfigurable with
      | true => exact .of_isConfigurable configurable _
      | false =>
        have keeps : request.keeps old.descriptor = true := by
          have fixed : old.descriptor.isConfigurable = false := configurable
          rw [fixed, Bool.false_or] at allowed
          exact allowed
        apply Slot.Succeeds.of_keptAs
        rw [Request.slotAfter, Slot.descriptor_ofDescriptor]
        exact Request.keptAs_descriptorAfter configurable keeps
    next => cases resolved

end ObjectModel
