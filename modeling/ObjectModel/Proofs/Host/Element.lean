import ObjectModel.Host.Element
import ObjectModel.Proofs.Number.Whole
import ObjectModel.Proofs.Text.Roundtrip

/-!
# Elements written back

An element that is read and then written is the element that was read, or it is refused because it
is too large a whole number.  There are two exceptions: `2 ^ 53 + 1` and its negative are read as
the numbers below them, and these are accepted.
-/

namespace ObjectModel

namespace Scalar

/-- Whether a host value is a whole number beyond those that all are numbers. -/
def Exceeds : (scalar : Scalar) → scalar.Carrier → Prop
  | .int64, n => exactBound < (Int64.toInt n).natAbs
  | .number, _ | .int32, _ | .uint32, _ | .boolean, _ | .string, _ => False

/-- Whether a host value is the first one beyond them, on either side. -/
def Slips : (scalar : Scalar) → scalar.Carrier → Prop
  | .int64, n => (Int64.toInt n).natAbs = exactBound + 1
  | .number, _ | .int32, _ | .uint32, _ | .boolean, _ | .string, _ => False

variable {scalar : Scalar} {element : scalar.Carrier}

theorem natAbs_int64_lt (n : Int64) : n.toInt.natAbs < twoPow 64 := by
  have low := n.le_toInt
  have high := n.toInt_lt
  have room : 2 ^ 63 < twoPow 64 := by decide
  omega

theorem integerOf_number {number : Number} {n : Int} (whole : number.toInt? = some n) :
    integerOf (.number number) =
      if n.natAbs ≤ exactBound then .ok n
      else .error (.typeMismatch (.conversion "number" "integer")) := by
  simp only [integerOf, Value.number?, Option.bind_some, whole]
  rfl

theorem integerOf_ofInt {n : Int} (small : n.natAbs ≤ exactBound) :
    integerOf (.number (.ofInt n)) = .ok n := by
  rw [integerOf_number (Number.toInt?_ofInt_of_le small), if_pos small]

section
variable {value : Value} {n : Int}

theorem ofValue_int64 : Scalar.int64.ofValue value = (integerOf value).map Int64.ofInt := by
  unfold ofValue
  cases integerOf value <;> rfl

theorem ofValue_int32 (read : integerOf value = .ok n)
    (range : -0x80000000 ≤ n ∧ n < 0x80000000) :
    Scalar.int32.ofValue value = .ok (Int32.ofInt n) := by
  unfold ofValue
  rw [read]
  exact if_pos range

theorem ofValue_uint32 (read : integerOf value = .ok n) (range : 0 ≤ n ∧ n < 0x100000000) :
    Scalar.uint32.ofValue value = .ok (UInt32.ofNat n.toNat) := by
  unfold ofValue
  rw [read]
  exact if_pos range

end

theorem ofValue_toValue_int32 (n : Int32) :
    Scalar.int32.ofValue (Scalar.int32.toValue n) = .ok n := by
  have low := n.le_toInt
  have high := n.toInt_lt
  have small : n.toInt.natAbs ≤ exactBound := by
    unfold exactBound
    omega
  have read : integerOf (Scalar.int32.toValue n) = .ok n.toInt := integerOf_ofInt small
  rw [ofValue_int32 read ⟨low, high⟩, Int32.ofInt_toInt]

theorem ofValue_toValue_uint32 (n : UInt32) :
    Scalar.uint32.ofValue (Scalar.uint32.toValue n) = .ok n := by
  have high := n.toNat_lt
  have small : (n.toNat : Int).natAbs ≤ exactBound := by
    unfold exactBound
    omega
  have read : integerOf (Scalar.uint32.toValue n) = .ok (n.toNat : Int) := by
    have value : Scalar.uint32.toValue n = .number (.ofInt n.toNat) :=
      congrArg Value.number (Number.ofInt_natCast n.toNat).symm
    rw [value, integerOf_ofInt small]
  rw [ofValue_uint32 read ⟨by omega, by omega⟩, Int.toNat_natCast, UInt32.ofNat_toNat]

/-- A host value is the one that its engine value converts to, unless it is too large. -/
theorem ofValue_toValue (holds : ¬scalar.Exceeds element) :
    scalar.ofValue (scalar.toValue element) = .ok element := by
  cases scalar with
  | number => rfl
  | int64 =>
    have small : (Int64.toInt element).natAbs ≤ exactBound := Nat.not_lt.mp holds
    have read : integerOf (Scalar.int64.toValue element) = .ok (Int64.toInt element) :=
      integerOf_ofInt small
    rw [ofValue_int64, read]
    exact congrArg Except.ok (Int64.ofInt_toInt element)
  | int32 => exact ofValue_toValue_int32 element
  | uint32 => exact ofValue_toValue_uint32 element
  | boolean => rfl
  | string => exact congrArg Except.ok (Text.toString_ofString element)

theorem ofValue_toValue_of_exceeds (exceeds : scalar.Exceeds element)
    (stays : ¬scalar.Slips element) :
    scalar.ofValue (scalar.toValue element) =
      .error (.typeMismatch (.conversion "number" "integer")) := by
  cases scalar
  case int64 =>
    have large : exactBound + 1 < (Int64.toInt element).natAbs := by
      have beyond : exactBound < (Int64.toInt element).natAbs := exceeds
      have notNext : (Int64.toInt element).natAbs ≠ exactBound + 1 := stays
      omega
    obtain ⟨whole, read, beyond⟩ := Number.exists_toInt?_ofInt large (natAbs_int64_lt element)
    rw [ofValue_int64, toValue, integerOf_number read, if_neg (Nat.not_le_of_lt beyond)]
    rfl
  all_goals exact exceeds.elim

/-- The first whole number that is no number is taken for the last one that is. -/
theorem ofValue_toValue_of_slips (slips : scalar.Slips element) :
    ∃ other, scalar.ofValue (scalar.toValue element) = .ok other ∧ other ≠ element := by
  cases scalar
  case int64 =>
    have next : (Int64.toInt element).natAbs = exactBound + 1 := slips
    obtain ⟨bound, size, read⟩ : ∃ bound : Int, bound.natAbs = exactBound ∧
        (Number.ofInt (Int64.toInt element)).toInt? = some bound := by
      refine ⟨_, ?_, Number.toInt?_ofInt_next next⟩
      split <;> omega
    have taken := integerOf_number read
    rw [if_pos (Nat.le_of_eq size)] at taken
    refine ⟨Int64.ofInt bound, ?_, ?_⟩
    · rw [ofValue_int64, toValue, taken]
      rfl
    · intro same
      have room : exactBound < 2 ^ 63 := by decide
      have exact : (Int64.ofInt bound).toInt = bound :=
        Int64.toInt_ofInt_of_le (by omega) (by omega)
      have held : Int64.toInt element = bound := same ▸ exact
      rw [held, size] at next
      exact absurd next (Nat.ne_of_lt (Nat.lt_succ_self exactBound))
  all_goals exact slips.elim

theorem isNullish_toValue : (scalar.toValue element).isNullish = false := by
  cases scalar <;> rfl

end Scalar

namespace ElementType

/-- Whether an element is absent, or is there but only as one that is absent itself. -/
def Absent : (type : ElementType) → type.Carrier → Prop
  | .plain _, _ => False
  | .optional _, none => True
  | .optional inner, some element => inner.Absent element

/-- Whether an element is a whole number beyond those that all are numbers. -/
def Exceeds : (type : ElementType) → type.Carrier → Prop
  | .plain scalar, element => scalar.Exceeds element
  | .optional _, none => False
  | .optional inner, some element => inner.Exceeds element

/-- Whether an element is the first one beyond them, on either side, or one that is there but
absent inside. -/
def Slips : (type : ElementType) → type.Carrier → Prop
  | .plain scalar, element => scalar.Slips element
  | .optional _, none => False
  | .optional inner, some element => inner.Absent element ∨ inner.Slips element

theorem isNullish_toValue_iff : (type : ElementType) → (element : type.Carrier) →
    ((type.toValue element).isNullish = true ↔ type.Absent element)
  | .plain scalar, element =>
    iff_of_false (Bool.eq_false_iff.mp (@Scalar.isNullish_toValue scalar element)) nofun
  | .optional _, none => iff_of_true rfl trivial
  | .optional inner, some element => isNullish_toValue_iff inner element

theorem ofValue_optional_of_absent {inner : ElementType} {element : inner.Carrier}
    (absent : inner.Absent element) :
    (optional inner).ofValue (inner.toValue element) = .ok none := by
  rw [ofValue, if_pos ((isNullish_toValue_iff inner element).mpr absent)]

theorem ofValue_optional_of_present {inner : ElementType} {element : inner.Carrier}
    (present : ¬inner.Absent element) :
    (optional inner).ofValue (inner.toValue element) =
      (inner.ofValue (inner.toValue element)).map some := by
  rw [ofValue, if_neg fun nullish => present ((isNullish_toValue_iff inner element).mp nullish)]
  rfl

theorem ofValue_toValue : {type : ElementType} → {element : type.Carrier} →
    (holds : ¬type.Exceeds element) → (stays : ¬type.Slips element) →
    type.ofValue (type.toValue element) = .ok element
  | .plain _, _, holds, _ => Scalar.ofValue_toValue holds
  | .optional _, none, _, _ => rfl
  | .optional inner, some held, holds, stays => by
    obtain ⟨present, staysInside⟩ := not_or.mp stays
    have read : inner.ofValue (inner.toValue held) = .ok held := ofValue_toValue holds staysInside
    exact (ofValue_optional_of_present present).trans (congrArg (Except.map some) read)

theorem ofValue_toValue_of_exceeds : {type : ElementType} → {element : type.Carrier} →
    (exceeds : type.Exceeds element) → (stays : ¬type.Slips element) →
    type.ofValue (type.toValue element) = .error (.typeMismatch (.conversion "number" "integer"))
  | .plain _, _, exceeds, stays => Scalar.ofValue_toValue_of_exceeds exceeds stays
  | .optional _, none, exceeds, _ => exceeds.elim
  | .optional inner, some held, exceeds, stays => by
    obtain ⟨present, staysInside⟩ := not_or.mp stays
    have refused : inner.ofValue (inner.toValue held) =
        .error (.typeMismatch (.conversion "number" "integer")) :=
      ofValue_toValue_of_exceeds exceeds staysInside
    exact (ofValue_optional_of_present present).trans (congrArg (Except.map some) refused)

theorem ofValue_toValue_of_slips : {type : ElementType} → {element : type.Carrier} →
    (slips : type.Slips element) →
    ∃ other, type.ofValue (type.toValue element) = .ok other ∧ other ≠ element
  | .plain _, _, slips => Scalar.ofValue_toValue_of_slips slips
  | .optional _, none, slips => slips.elim
  | .optional inner, some held, slips => by
    rcases Classical.em (inner.Absent held) with absent | present
    · exact ⟨none, ofValue_optional_of_absent absent, nofun⟩
    · obtain ⟨other, read, changed⟩ := ofValue_toValue_of_slips (slips.resolve_left present)
      exact ⟨some other,
        (ofValue_optional_of_present present).trans (congrArg (Except.map some) read),
        fun same => changed (Option.some.inj same)⟩

variable {type : ElementType} {element : type.Carrier}

/-- Writing back what was read keeps an element or is refused, and for the two elements that are
first beyond the bound, and for those that are absent inside another, it is neither: they are
changed. -/
theorem written_back_iff :
    (type.ofValue (type.toValue element) = .ok element ∨
      type.ofValue (type.toValue element) =
        .error (.typeMismatch (.conversion "number" "integer"))) ↔ ¬type.Slips element := by
  constructor
  · intro kept slips
    obtain ⟨other, read, changed⟩ := ofValue_toValue_of_slips slips
    rw [read] at kept
    rcases kept with same | refused
    · exact changed (Except.ok.inj same)
    · cases refused
  · intro stays
    rcases Classical.em (type.Exceeds element) with exceeds | holds
    · exact .inr (ofValue_toValue_of_exceeds exceeds stays)
    · exact .inl (ofValue_toValue holds stays)

/-- `2 ^ 53 + 1` is written back as `2 ^ 53`. -/
theorem written_back_next :
    (plain .int64).ofValue ((plain .int64).toValue (Int64.ofInt 9007199254740993)) =
        .ok (Int64.ofInt 9007199254740992) ∧
      Int64.ofInt 9007199254740992 ≠ Int64.ofInt 9007199254740993 := by
  have exact : (Int64.ofInt 9007199254740993).toInt = 9007199254740993 := by decide
  have value : (plain .int64).toValue (Int64.ofInt 9007199254740993) =
      .number (.ofInt 9007199254740993) :=
    congrArg (fun n => Value.number (.ofInt n)) exact
  have read : (Number.ofInt 9007199254740993).toInt? = some 9007199254740992 :=
    Number.toInt?_ofInt_next (by decide)
  have taken : Scalar.integerOf (.number (.ofInt 9007199254740993)) = .ok 9007199254740992 :=
    (Scalar.integerOf_number read).trans (if_pos (by decide))
  refine ⟨?_, by decide⟩
  rw [value, ofValue, Scalar.ofValue_int64, taken]
  rfl

end ElementType

end ObjectModel
