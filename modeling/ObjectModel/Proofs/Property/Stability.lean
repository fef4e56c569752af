import ObjectModel.Proofs.Property.Merge
import ObjectModel.Proofs.Property.Succession

/-!
# Requests that change nothing

What a request made of a property shows all that the request named, and the rest as it was.  So the
same request is admitted once more and changes nothing then, even if the property is not
configurable any more, and so is the request that names every field of a property as it is.
-/

namespace ObjectModel

/-- Whether a property is stored as its description is, and described as properties are. -/
structure Slot.Canonical (slot : Slot) : Prop where
  stored : slot = .ofDescriptor slot.descriptor
  proper : slot.descriptor.Proper

namespace Slot.Canonical

theorem bare (value : Value) : (Slot.bare value).Canonical := ⟨rfl, trivial⟩

theorem data {value : Value} {attributes : Attributes} (unset : attributes ≠ .standard) :
    (Slot.described (.data value attributes)).Canonical :=
  ⟨(if_neg unset).symm, trivial⟩

theorem fixed (value : Value) (enumerable : Bool) : (Slot.fixed value enumerable).Canonical :=
  data (by simp [Attributes.standard])

theorem write? {slot written : Slot} (canonical : slot.Canonical) {value : Value}
    (overwritten : slot.write? value = some written) : written.Canonical := by
  cases slot with
  | bare old =>
    cases overwritten
    exact bare value
  | described descriptor =>
    cases descriptor with
    | accessor get set attributes => cases overwritten
    | data old attributes =>
      have unset : attributes ≠ .standard := by
        intro isStandard
        have stored := canonical.stored
        rw [Slot.descriptor, Slot.ofDescriptor, if_pos isStandard] at stored
        cases stored
      simp only [Slot.write?] at overwritten
      split at overwritten
      next =>
        cases overwritten
        exact data unset
      next => cases overwritten

end Slot.Canonical

namespace Request

variable {request : Request} {existing : Option Descriptor} {old shown merged : Descriptor}

/-- Whether a description has all that a request names. -/
structure ReportedBy (request : Request) (shown : Descriptor) : Prop where
  value : ∀ named, request.value = some named →
    ∃ kept, shown.value? = some kept ∧ named.same kept = true
  get : ∀ named, request.get = some named →
    shown.isAccessor = true ∧ named.StandsFor shown.get?
  set : ∀ named, request.set = some named →
    shown.isAccessor = true ∧ named.StandsFor shown.set?
  writable : ∀ named, request.writable = some named →
    shown.isAccessor = false ∧ shown.isWritable = named
  enumerable : ∀ named, request.enumerable = some named → shown.isEnumerable = named
  configurable : ∀ named, request.configurable = some named → shown.isConfigurable = named

/-- Whether all that a request does not name is as it was. -/
structure LeavesRest (request : Request) (old shown : Descriptor) : Prop where
  value : request.value = none → shown.value? = old.value?
  get : request.get = none → shown.get? = old.get?
  set : request.set = none → shown.set? = old.set?
  writable : request.writable = none → shown.isWritable = old.isWritable
  enumerable : request.enumerable = none → shown.isEnumerable = old.isEnumerable
  configurable : request.configurable = none → shown.isConfigurable = old.isConfigurable

namespace MergesInto

theorem isWritable (merges : request.MergesInto existing merged)
    (valued : merged.isAccessor = false) :
    merged.isWritable = request.writable.getD (existing.any Descriptor.isWritable) := by
  have writable := merges.writable
  cases merged with
  | data => exact writable
  | accessor => cases valued

theorem reportedBy (merges : request.MergesInto existing merged) : request.ReportedBy merged where
  value named isNamed := by
    have valued := merges.isData (.inl (by simp [isNamed]))
    refine ⟨named, ?_, beq_self_eq_true named⟩
    rw [merges.value valued, isNamed]
    rfl
  get named isNamed := by
    have accessor := merges.isAccessor (.inl (by simp [isNamed]))
    exact ⟨accessor, (merges.get accessor).standsFor isNamed⟩
  set named isNamed := by
    have accessor := merges.isAccessor (.inr (by simp [isNamed]))
    exact ⟨accessor, (merges.set accessor).standsFor isNamed⟩
  writable named isNamed := by
    have valued := merges.isData (.inr (by simp [isNamed]))
    refine ⟨valued, ?_⟩
    rw [merges.isWritable valued, isNamed]
    rfl
  enumerable named isNamed := by
    rw [Descriptor.isEnumerable, merges.enumerable, isNamed]
    rfl
  configurable named isNamed := by
    rw [Descriptor.isConfigurable, merges.configurable, isNamed]
    rfl

theorem leavesRest (merges : request.MergesInto (some old) merged)
    (sameKind : merged.isAccessor = old.isAccessor) : request.LeavesRest old merged where
  value unnamed := by
    cases old with
    | data value attributes =>
      rw [merges.value sameKind, unnamed]
      rfl
    | accessor =>
      cases merged with
      | data => cases sameKind
      | accessor => rfl
  get unnamed := by
    cases old with
    | data =>
      cases merged with
      | data => rfl
      | accessor => cases sameKind
    | accessor =>
      exact (merges.get sameKind).eq_of_unnamed unnamed
  set unnamed := by
    cases old with
    | data =>
      cases merged with
      | data => rfl
      | accessor => cases sameKind
    | accessor =>
      exact (merges.set sameKind).eq_of_unnamed unnamed
  writable unnamed := by
    cases old with
    | data =>
      rw [merges.isWritable sameKind, unnamed]
      rfl
    | accessor =>
      cases merged with
      | data => cases sameKind
      | accessor => rfl
  enumerable unnamed := by
    rw [Descriptor.isEnumerable, merges.enumerable, unnamed]
    rfl
  configurable unnamed := by
    rw [Descriptor.isConfigurable, merges.configurable, unnamed]
    rfl

end MergesInto

namespace ReportedBy

/-- What has all that a request names is what the request makes of it. -/
theorem mergesInto (reported : request.ReportedBy shown) (proper : shown.Proper) :
    request.MergesInto (some shown) shown where
  isData named := by
    rcases named with valued | flagged
    · obtain ⟨value, isValue⟩ := Option.ne_none_iff_exists'.mp valued
      obtain ⟨kept, found, _⟩ := reported.value value isValue
      cases shown with
      | data => rfl
      | accessor => cases found
    · obtain ⟨writable, isWritable⟩ := Option.ne_none_iff_exists'.mp flagged
      exact (reported.writable writable isWritable).1
  isAccessor named := by
    rcases named with got | set
    · obtain ⟨get, isGet⟩ := Option.ne_none_iff_exists'.mp got
      exact (reported.get get isGet).1
    · obtain ⟨set, isSet⟩ := Option.ne_none_iff_exists'.mp set
      exact (reported.set set isSet).1
  isGeneric _ _ := rfl
  value valued := by
    cases shown with
    | accessor => cases valued
    | data value attributes =>
      cases named : request.value with
      | none => rfl
      | some other =>
        obtain ⟨kept, found, same⟩ := reported.value other named
        rw [found, eq_of_beq same]
        rfl
  get _ := by
    cases named : request.get with
    | none => exact .kept
    | some get => exact .named (reported.get get named).2
  set _ := by
    cases named : request.set with
    | none => exact .kept
    | some set => exact .named (reported.set set named).2
  writable := by
    cases shown with
    | accessor => exact proper.1
    | data value attributes =>
      cases named : request.writable with
      | none => rfl
      | some writable => exact (reported.writable writable named).2
  enumerable := by
    cases named : request.enumerable with
    | none => rfl
    | some enumerable => exact reported.enumerable enumerable named
  configurable := by
    cases named : request.configurable with
    | none => rfl
    | some configurable => exact reported.configurable configurable named

theorem unmixed (reported : request.ReportedBy shown) (proper : shown.Proper) :
    ¬request.Mixes := by
  have merges := reported.mergesInto proper
  rintro ⟨namesData, namesFunction⟩
  have accessor := merges.isAccessor namesFunction
  rw [merges.isData namesData] at accessor
  cases accessor

theorem spares (reported : request.ReportedBy shown) (proper : shown.Proper) :
    request.Spares shown := by
  have merges := reported.mergesInto proper
  cases shown with
  | data value attributes =>
    have functionless : ¬request.NamesFunction := fun named => nomatch merges.isAccessor named
    by_cases namesData : request.NamesData
    · refine .data namesData functionless ?_
      cases writable : attributes.writable with
      | true => exact .inl rfl
      | false =>
        right
        constructor
        · intro named
          have isWritable : attributes.writable = true := (reported.writable true named).2
          rw [writable] at isWritable
          cases isWritable
        · intro named isNamed
          obtain ⟨kept, found, same⟩ := reported.value named isNamed
          cases found
          exact eq_of_beq same
    · exact .generic namesData functionless
  | accessor get set attributes =>
    have valueless : ¬request.NamesData := fun named => nomatch merges.isData named
    by_cases namesFunction : request.NamesFunction
    · exact .accessor valueless namesFunction (fun named isNamed => (reported.get named isNamed).2)
        fun named isNamed => (reported.set named isNamed).2
    · exact .generic valueless namesFunction

theorem admitted (reported : request.ReportedBy shown) (proper : shown.Proper)
    (extensible : Bool) : request.Admitted extensible (some shown) := by
  cases configurable : shown.isConfigurable with
  | true => exact .configurable configurable
  | false =>
    refine .locked configurable (fun named => ?_)
      (fun named isNamed => (reported.enumerable named isNamed).symm) (reported.spares proper)
    have isConfigurable := reported.configurable true named
    rw [configurable] at isConfigurable
    cases isConfigurable

end ReportedBy

theorem standsFor_getD {function : Option Value} (proper : function ≠ some .undefined) :
    (function.getD .undefined).StandsFor function := by
  cases function with
  | none => exact .nothing
  | some value => exact .function fun isUndefined => proper (congrArg some isUndefined)

/-- The request that names every field of a property names what the property has. -/
theorem reportedBy_ofDescriptor (proper : shown.Proper) :
    (ofDescriptor shown).ReportedBy shown := by
  cases shown with
  | data value attributes =>
    constructor
    case value =>
      intro named isNamed
      cases isNamed
      exact ⟨value, rfl, beq_self_eq_true value⟩
    case get =>
      intro named isNamed
      cases isNamed
    case set =>
      intro named isNamed
      cases isNamed
    case writable => exact fun named isNamed => ⟨rfl, Option.some.inj isNamed⟩
    case enumerable => exact fun named isNamed => Option.some.inj isNamed
    case configurable => exact fun named isNamed => Option.some.inj isNamed
  | accessor get set attributes =>
    obtain ⟨readOnly, properGet, properSet⟩ := proper
    constructor
    case value =>
      intro named isNamed
      cases isNamed
    case get =>
      intro named isNamed
      cases isNamed
      exact ⟨rfl, standsFor_getD properGet⟩
    case set =>
      intro named isNamed
      cases isNamed
      exact ⟨rfl, standsFor_getD properSet⟩
    case writable =>
      intro named isNamed
      cases isNamed
    case enumerable => exact fun named isNamed => Option.some.inj isNamed
    case configurable => exact fun named isNamed => Option.some.inj isNamed

end Request

section Deciding

variable {key : Key} {slot : Slot} {existing : Option Slot} {request : Request} {extensible : Bool}

theorem resolution_of_reportedBy (canonical : slot.Canonical)
    (reported : request.ReportedBy slot.descriptor) (key : Key) (extensible : Bool) :
    resolution key (some slot) request extensible = .ok (.stored slot) := by
  have unmixed := reported.unmixed canonical.proper
  have admitted := reported.admitted canonical.proper extensible
  have proper : ∀ other, some slot = some other → other.descriptor.Proper := by
    rintro _ ⟨⟩
    exact canonical.proper
  have separate := Request.isMixed_eq_false.mpr unmixed
  refine resolution_eq_stored_iff.mpr ⟨separate, admitted, ?_⟩
  exact (eq_slotAfter_iff separate proper).mpr
    ⟨_, reported.mergesInto canonical.proper, Slot.stores_iff.mpr canonical.stored⟩

theorem mergesInto_of_resolution (canonical : ∀ other, existing = some other → other.Canonical)
    (decided : resolution key existing request extensible = .ok (.stored slot)) :
    request.MergesInto (existing.map Slot.descriptor) slot.descriptor ∧ slot.Canonical := by
  obtain ⟨unmixed, _, stored⟩ := resolution_eq_stored_iff.mp decided
  obtain ⟨merged, merges, stores⟩ :=
    (eq_slotAfter_iff unmixed fun other found => (canonical other found).proper).mp stored
  obtain rfl := stores.descriptor_eq
  refine ⟨merges, Slot.stores_iff.mp stores, merges.proper ?_⟩
  intro descriptor found
  obtain ⟨other, isOther, rfl⟩ := Option.map_eq_some_iff.mp found
  exact (canonical other isOther).proper

end Deciding

end ObjectModel
