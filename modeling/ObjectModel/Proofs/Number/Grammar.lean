import Mathlib.Data.List.TakeWhile
import Mathlib.Tactic.ByContra
import ObjectModel.Value

/-!
# Texts that are numbers

A text is a number exactly if it is written in one of three ways, when the white space around it is
left out, or is nothing then.  The grammar says what these ways are, without regard to how a text is
read: a number without end, the digits of a radix behind its mark, or a decimal literal.
-/

namespace ObjectModel

/-- The digits of a radix.  Letters of either case are the digits from ten on. -/
def digitsOf (radix : Nat) : List Char :=
  "0123456789abcdef".toList.take radix ++ "ABCDEF".toList.take (radix - 10)

/-- What remains of characters when those that may surround a number are left out at both ends. -/
structure Trims (chars core : List Char) : Prop where
  around : ∃ front back, chars = front ++ core ++ back ∧
    (∀ c ∈ front, surroundsNumber c = true) ∧ ∀ c ∈ back, surroundsNumber c = true
  first : ∀ c ∈ core.head?, surroundsNumber c = false
  last : ∀ c ∈ core.getLast?, surroundsNumber c = false

namespace NumberText

def Digits (radix : Nat) (chars : List Char) : Prop :=
  chars ≠ [] ∧ ∀ c ∈ chars, c ∈ digitsOf radix

/-- At most one sign. -/
inductive OptionalSign : List Char → Prop
  | absent : OptionalSign []
  | plus : OptionalSign ['+']
  | minus : OptionalSign ['-']

/-- Digits with or without a fraction, which may have no digits, or a point with digits. -/
inductive Mantissa : List Char → Prop
  | whole {digits : List Char} (some : Digits 10 digits) : Mantissa digits
  | fraction {whole digits : List Char} (some : Digits 10 whole)
      (further : ∀ c ∈ digits, c ∈ digitsOf 10) : Mantissa (whole ++ '.' :: digits)
  | point {digits : List Char} (some : Digits 10 digits) : Mantissa ('.' :: digits)

/-- A mark, possibly a sign, and digits, or nothing at all. -/
inductive OptionalExponent : List Char → Prop
  | absent : OptionalExponent []
  | scale {mark : Char} {sign digits : List Char} (marked : mark = 'e' ∨ mark = 'E')
      (signed : OptionalSign sign) (some : Digits 10 digits) :
      OptionalExponent (mark :: (sign ++ digits))

/-- The marks behind a zero, each with the radix that it stands for. -/
def radixMarks : List (Char × Nat) :=
  [('x', 16), ('X', 16), ('o', 8), ('O', 8), ('b', 2), ('B', 2)]

end NumberText

open NumberText in
/-- The ways to write a number. -/
inductive NumberText : List Char → Prop
  | infinity {sign : List Char} (signed : OptionalSign sign) :
      NumberText (sign ++ "Infinity".toList)
  | radix {mark : Char} {radix : Nat} {digits : List Char} (marked : (mark, radix) ∈ radixMarks)
      (some : Digits radix digits) : NumberText ('0' :: mark :: digits)
  | decimal {sign mantissa exponent : List Char} (signed : OptionalSign sign)
      (valued : Mantissa mantissa) (scaled : OptionalExponent exponent) :
      NumberText (sign ++ (mantissa ++ exponent))

section Digits

theorem iff_mem_of_ascii {holds : Char → Prop} {members : List Char}
    (small : ∀ c, holds c → c.toNat < 0x80)
    (smallMembers : members.all (fun c => c.toNat < 0x80) = true)
    (checked : ∀ n < 0x80, holds (Char.ofNat n) ↔ Char.ofNat n ∈ members) (c : Char) :
    holds c ↔ c ∈ members := by
  have same : c.toNat < 0x80 → (holds c ↔ c ∈ members) := by
    intro ascii
    have known := checked c.toNat ascii
    rwa [Char.ofNat_toNat] at known
  exact ⟨fun held => (same (small c held)).mp held,
    fun member => (same (of_decide_eq_true (List.all_eq_true.mp smallMembers c member))).mpr
      member⟩

theorem toNat_le_of_le {c d : Char} (le : c ≤ d) : c.toNat ≤ d.toNat :=
  UInt32.le_iff_toNat_le.mp (Char.le_def.mp le)

theorem isDecimalDigit_iff (c : Char) : isDecimalDigit c = true ↔ c ∈ digitsOf 10 := by
  have ascii : ∀ c, isDecimalDigit c = true → c.toNat < 0x80 := by
    intro c digit
    simp only [isDecimalDigit, Bool.and_eq_true, decide_eq_true_iff] at digit
    exact Nat.lt_of_le_of_lt (toNat_le_of_le digit.2) (by decide)
  exact iff_mem_of_ascii ascii (by decide) (by decide +kernel) c

theorem isSome_digitValue?_iff {radix : Nat} (known : radix = 16 ∨ radix = 8 ∨ radix = 2)
    (c : Char) : (digitValue? radix c).isSome = true ↔ c ∈ digitsOf radix := by
  have small : ∀ c, (digitValue? radix c).isSome = true → c.toNat < 0x80 := by
    intro c valued
    by_contra large
    have above {d : Char} (ascii : d.toNat < 0x80) : ¬c ≤ d := fun le => by
      have bound := toNat_le_of_le le
      omega
    have noDigit : ¬c ≤ '9' := above (by decide)
    have noLower : ¬c ≤ 'f' := above (by decide)
    have noUpper : ¬c ≤ 'F' := above (by decide)
    simp only [digitValue?, noDigit, noLower, noUpper, and_false, if_false] at valued
    rw [if_neg (by omega)] at valued
    cases valued
  rcases known with rfl | rfl | rfl
  · exact iff_mem_of_ascii small (by decide) (by decide +kernel) c
  · exact iff_mem_of_ascii small (by decide) (by decide +kernel) c
  · exact iff_mem_of_ascii small (by decide) (by decide +kernel) c

end Digits

namespace Number

variable {radix digit : Nat} {value : Number} {digits : List Char}

theorem ofUnits_ne_nan (negative : Bool) (numerator denominator : Nat) :
    ofUnits negative numerator denominator ≠ .nan := by
  unfold ofUnits
  simp only
  split <;> nofun

theorem appendDigit_ne_nan (number : value ≠ .nan) : appendDigit radix digit value ≠ .nan := by
  unfold appendDigit
  split
  next => exact absurd rfl number
  next => nofun
  next negative magnitude fits =>
    split
    next => exact ofUnits_ne_nan _ _ _
    next => exact ofUnits_ne_nan _ _ _

/-- The number read so far, if all characters have been digits, and one character more. -/
def readDigit (radix : Nat) (read : Option Number) (c : Char) : Option Number :=
  read.bind fun value => (digitValue? radix c).map fun digit => appendDigit radix digit value

theorem foldl_readDigit_none (radix : Nat) (digits : List Char) :
    digits.foldl (readDigit radix) none = none := by
  induction digits with
  | nil => rfl
  | cons c rest inductionHypothesis => exact inductionHypothesis

theorem exists_foldl_readDigit (valued : ∀ c ∈ digits, (digitValue? radix c).isSome = true)
    (number : value ≠ .nan) :
    ∃ read, digits.foldl (readDigit radix) (some value) = some read ∧ read ≠ .nan := by
  induction digits generalizing value with
  | nil => exact ⟨value, rfl, number⟩
  | cons c rest inductionHypothesis =>
    obtain ⟨digit, isDigit⟩ := Option.isSome_iff_exists.mp (valued c List.mem_cons_self)
    have next : readDigit radix (some value) c = some (appendDigit radix digit value) := by
      rw [readDigit, Option.bind_some, isDigit, Option.map_some]
    rw [List.foldl_cons, next]
    exact inductionHypothesis (fun other member => valued other (.tail c member))
      (appendDigit_ne_nan number)

theorem foldl_readDigit_eq_none {c : Char} (member : c ∈ digits)
    (invalid : digitValue? radix c = none) :
    digits.foldl (readDigit radix) (some value) = none := by
  induction digits generalizing value with
  | nil => cases member
  | cons first rest inductionHypothesis =>
    rw [List.foldl_cons]
    cases read : readDigit radix (some value) first with
    | none => exact foldl_readDigit_none radix rest
    | some next =>
      rcases List.mem_cons.mp member with rfl | later
      · rw [readDigit, Option.bind_some, invalid] at read
        cases read
      · exact inductionHypothesis later

/-- Digits of a radix are a number, and nothing else is. -/
theorem ofRadixDigits_ne_nan_iff (known : radix = 16 ∨ radix = 8 ∨ radix = 2) :
    ofRadixDigits radix digits ≠ .nan ↔ NumberText.Digits radix digits := by
  have read : ofRadixDigits radix digits =
      if digits.isEmpty then .nan else (digits.foldl (readDigit radix) (some zero)).getD .nan := rfl
  rw [read]
  constructor
  · intro number
    split at number
    next => exact absurd rfl number
    next nonempty =>
      refine ⟨fun isNil => nonempty (List.isEmpty_iff.mpr isNil), fun c member => ?_⟩
      rw [← isSome_digitValue?_iff known]
      by_contra invalid
      rw [foldl_readDigit_eq_none member (Option.not_isSome_iff_eq_none.mp invalid)] at number
      exact number rfl
  · rintro ⟨nonempty, all⟩
    have valued : ∀ c ∈ digits, (digitValue? radix c).isSome = true := fun c member =>
      (isSome_digitValue?_iff known c).mpr (all c member)
    obtain ⟨last, folded, isNumber⟩ := exists_foldl_readDigit valued (by nofun : zero ≠ .nan)
    rw [if_neg fun isEmpty => nonempty (List.isEmpty_iff.mp isEmpty), folded, Option.getD_some]
    exact isNumber

end Number

section Signs

open NumberText

variable {sign rest : List Char}

theorem exists_sign_append (chars : List Char) :
    ∃ sign, OptionalSign sign ∧ chars = sign ++ (splitSign chars).2 := by
  unfold splitSign
  split
  next => exact ⟨['+'], .plus, rfl⟩
  next => exact ⟨['-'], .minus, rfl⟩
  next => exact ⟨[], .absent, rfl⟩

theorem splitSign_append (signed : OptionalSign sign)
    (unsigned : ∀ c ∈ rest.head?, c ≠ '+' ∧ c ≠ '-') : (splitSign (sign ++ rest)).2 = rest := by
  cases signed with
  | plus => rfl
  | minus => rfl
  | absent =>
    rw [List.nil_append]
    unfold splitSign
    split
    next => exact absurd rfl (unsigned '+' rfl).1
    next => exact absurd rfl (unsigned '-' rfl).2
    next => rfl

theorem NumberText.Digits.head (digits : Digits 10 rest) (further : List Char) :
    ∃ c others, rest ++ further = c :: others ∧ c ∈ digitsOf 10 := by
  cases rest with
  | nil => exact absurd rfl digits.1
  | cons c others => exact ⟨c, others ++ further, rfl, digits.2 c List.mem_cons_self⟩

theorem ne_sign_of_mem_digitsOf {c : Char} (digit : c ∈ digitsOf 10) : c ≠ '+' ∧ c ≠ '-' := by
  constructor
  · rintro rfl
    exact absurd digit (by decide)
  · rintro rfl
    exact absurd digit (by decide)

end Signs

namespace DecimalLiteral

open NumberText

variable {chars : List Char}

theorem scales_iff {mark : Char} {digits : List Char} :
    ((mark == 'e' || mark == 'E') && !digits.isEmpty && digits.all isDecimalDigit) = true ↔
      (mark = 'e' ∨ mark = 'E') ∧ Digits 10 digits := by
  simp only [Digits, Bool.and_eq_true, Bool.or_eq_true, beq_iff_eq, List.all_eq_true,
    isDecimalDigit_iff, Bool.not_eq_true', List.isEmpty_eq_false_iff, and_assoc, ne_eq]

theorem isSome_exponent?_iff : (exponent? chars).isSome = true ↔ OptionalExponent chars := by
  constructor
  · intro read
    cases chars with
    | nil => exact .absent
    | cons mark rest =>
      obtain ⟨sign, signed, split⟩ := exists_sign_append rest
      simp only [exponent?] at read
      split at read
      next accepted =>
        obtain ⟨marked, digits⟩ := scales_iff.mp accepted
        rw [split]
        exact .scale marked signed digits
      next => cases read
  · intro scaled
    cases scaled with
    | absent => rfl
    | @scale mark sign digits marked signed some =>
      obtain ⟨c, others, head, isDigit⟩ := some.head []
      rw [List.append_nil] at head
      have split : (splitSign (sign ++ digits)).2 = digits := by
        refine splitSign_append signed fun first isFirst => ?_
        rw [head] at isFirst
        cases isFirst
        exact ne_sign_of_mem_digitsOf isDigit
      simp only [exponent?, split, scales_iff.mpr ⟨marked, some⟩, if_true, Option.isSome_some]

theorem span_digits {digits rest : List Char} (all : ∀ c ∈ digits, c ∈ digitsOf 10)
    (boundary : ∀ c ∈ rest.head?, c ∉ digitsOf 10) :
    (digits ++ rest).takeWhile isDecimalDigit = digits ∧
      (digits ++ rest).dropWhile isDecimalDigit = rest := by
  have inside : ∀ c ∈ digits, isDecimalDigit c = true := fun c member =>
    (isDecimalDigit_iff c).mpr (all c member)
  rw [List.takeWhile_append_of_pos inside, List.dropWhile_append_of_pos inside]
  cases rest with
  | nil => exact ⟨List.append_nil digits, rfl⟩
  | cons c rest =>
    have stops : ¬isDecimalDigit c = true := fun digit =>
      boundary c rfl ((isDecimalDigit_iff c).mp digit)
    rw [List.takeWhile_cons_of_neg stops, List.dropWhile_cons_of_neg stops, List.append_nil]
    exact ⟨rfl, rfl⟩

theorem mem_digitsOf_of_mem_takeWhile {c : Char} (member : c ∈ chars.takeWhile isDecimalDigit) :
    c ∈ digitsOf 10 :=
  (isDecimalDigit_iff c).mp (List.mem_takeWhile_imp member)

/-- The parts of a literal are read if there is a digit and what follows is an exponent. -/
theorem isSome_parts_iff {whole fraction rest : List Char} :
    (if whole.isEmpty && fraction.isEmpty then none
      else (exponent? rest).map fun exponent =>
        (⟨whole, fraction, exponent⟩ : DecimalLiteral)).isSome = true ↔
      (whole ≠ [] ∨ fraction ≠ []) ∧ OptionalExponent rest := by
  rw [← isSome_exponent?_iff]
  cases whole with
  | cons => simp
  | nil => cases fraction with
    | cons => simp
    | nil => simp

theorem isSome_ofChars?_point_iff {rest : List Char}
    (behind : chars.dropWhile isDecimalDigit = '.' :: rest) :
    (ofChars? chars).isSome = true ↔
      (chars.takeWhile isDecimalDigit ≠ [] ∨ rest.takeWhile isDecimalDigit ≠ []) ∧
        OptionalExponent (rest.dropWhile isDecimalDigit) := by
  rw [← isSome_parts_iff]
  simp only [ofChars?, behind]

theorem isSome_ofChars?_whole_iff
    (behind : ∀ rest, chars.dropWhile isDecimalDigit ≠ '.' :: rest) :
    (ofChars? chars).isSome = true ↔
      chars.takeWhile isDecimalDigit ≠ [] ∧
        OptionalExponent (chars.dropWhile isDecimalDigit) := by
  have parts := @isSome_parts_iff (chars.takeWhile isDecimalDigit) []
    (chars.dropWhile isDecimalDigit)
  rw [or_iff_left (not_not_intro rfl)] at parts
  rw [← parts]
  simp only [ofChars?]

theorem exists_of_isSome_ofChars? (read : (ofChars? chars).isSome = true) :
    ∃ mantissa exponent, Mantissa mantissa ∧ OptionalExponent exponent ∧
      chars = mantissa ++ exponent := by
  have whole : ∀ c ∈ chars.takeWhile isDecimalDigit, c ∈ digitsOf 10 := fun _ =>
    mem_digitsOf_of_mem_takeWhile
  have parts := @List.takeWhile_append_dropWhile _ isDecimalDigit chars
  by_cases pointed : ∃ rest, chars.dropWhile isDecimalDigit = '.' :: rest
  case neg =>
    rw [isSome_ofChars?_whole_iff fun rest behind => pointed ⟨rest, behind⟩] at read
    exact ⟨_, _, .whole ⟨read.1, whole⟩, read.2, parts.symm⟩
  case pos =>
    obtain ⟨rest, behind⟩ := pointed
    obtain ⟨digit, scaled⟩ := (isSome_ofChars?_point_iff behind).mp read
    have fraction : ∀ c ∈ rest.takeWhile isDecimalDigit, c ∈ digitsOf 10 := fun _ =>
      mem_digitsOf_of_mem_takeWhile
    rw [behind, ← @List.takeWhile_append_dropWhile _ isDecimalDigit rest] at parts
    by_cases empty : chars.takeWhile isDecimalDigit = []
    case pos =>
      have some : rest.takeWhile isDecimalDigit ≠ [] := digit.resolve_left (not_not_intro empty)
      rw [empty, List.nil_append] at parts
      exact ⟨_, _, .point ⟨some, fraction⟩, scaled, parts.symm⟩
    case neg =>
      refine ⟨_, _, .fraction ⟨empty, whole⟩ fraction, scaled, ?_⟩
      rw [List.append_assoc]
      exact parts.symm

theorem head_of_optionalExponent {exponent : List Char} (scaled : OptionalExponent exponent) :
    ∀ c ∈ exponent.head?, c ∉ digitsOf 10 ∧ c ≠ '.' := by
  cases scaled with
  | absent => nofun
  | scale marked signed some =>
    rintro c ⟨⟩
    rcases marked with rfl | rfl
    · decide
    · decide

theorem isSome_ofChars?_iff : (ofChars? chars).isSome = true ↔
    ∃ mantissa exponent, Mantissa mantissa ∧ OptionalExponent exponent ∧
      chars = mantissa ++ exponent := by
  refine ⟨exists_of_isSome_ofChars?, ?_⟩
  rintro ⟨mantissa, exponent, valued, scaled, rfl⟩
  have boundary := head_of_optionalExponent scaled
  cases valued with
  | whole some =>
    obtain ⟨taken, left⟩ := span_digits some.2 fun c first => (boundary c first).1
    rw [isSome_ofChars?_whole_iff, taken, left]
    · exact ⟨some.1, scaled⟩
    · rintro rest pointed
      rw [left] at pointed
      exact (boundary '.' (by rw [pointed]; rfl)).2 rfl
  | @fraction whole digits some further =>
    have point : ∀ c ∈ ('.' :: (digits ++ exponent)).head?, c ∉ digitsOf 10 := by
      rintro c ⟨⟩
      decide
    obtain ⟨taken, left⟩ := span_digits some.2 point
    obtain ⟨-, behind⟩ := span_digits further fun c first => (boundary c first).1
    rw [List.append_assoc, List.cons_append, isSome_ofChars?_point_iff left, taken, behind]
    exact ⟨.inl some.1, scaled⟩
  | @point digits some =>
    have left : ('.' :: (digits ++ exponent)).dropWhile isDecimalDigit =
        '.' :: (digits ++ exponent) := rfl
    obtain ⟨taken, behind⟩ := span_digits some.2 fun c first => (boundary c first).1
    rw [List.cons_append, isSome_ofChars?_point_iff left, taken, behind]
    exact ⟨.inr some.1, scaled⟩

theorem toNumber_ne_nan (negative : Bool) (literal : DecimalLiteral) :
    literal.toNumber negative ≠ .nan := by
  unfold toNumber
  simp only
  split
  next => exact Number.ofUnits_ne_nan _ _ _
  next =>
    split
    next => nofun
    next =>
      split
      next => exact Number.ofUnits_ne_nan _ _ _
      next => split <;> exact Number.ofUnits_ne_nan _ _ _

end DecimalLiteral

namespace NumberText

variable {mantissa exponent : List Char}

/-- The characters of a decimal literal. -/
def decimalChars : List Char := digitsOf 10 ++ ".eE+-".toList

theorem mem_decimalChars_of_digit {c : Char} (digit : c ∈ digitsOf 10) : c ∈ decimalChars :=
  List.mem_append_left _ digit

theorem OptionalSign.mem_decimalChars {sign : List Char} (signed : OptionalSign sign) :
    ∀ c ∈ sign, c ∈ decimalChars := by
  cases signed with
  | absent => nofun
  | plus => exact List.forall_mem_singleton.mpr (by decide)
  | minus => exact List.forall_mem_singleton.mpr (by decide)

theorem Mantissa.mem_decimalChars (valued : Mantissa mantissa) :
    ∀ c ∈ mantissa, c ∈ decimalChars := by
  intro c member
  cases valued with
  | whole some => exact mem_decimalChars_of_digit (some.2 c member)
  | fraction some further =>
    rcases List.mem_append.mp member with before | behind
    · exact mem_decimalChars_of_digit (some.2 c before)
    · rcases List.mem_cons.mp behind with rfl | digit
      · decide
      · exact mem_decimalChars_of_digit (further c digit)
  | point some =>
    rcases List.mem_cons.mp member with rfl | digit
    · decide
    · exact mem_decimalChars_of_digit (some.2 c digit)

theorem OptionalExponent.mem_decimalChars (scaled : OptionalExponent exponent) :
    ∀ c ∈ exponent, c ∈ decimalChars := by
  intro c member
  cases scaled with
  | absent => cases member
  | scale marked signed some =>
    rcases List.mem_cons.mp member with rfl | behind
    · rcases marked with rfl | rfl
      · decide
      · decide
    · rcases List.mem_append.mp behind with inSign | digit
      · exact signed.mem_decimalChars c inSign
      · exact mem_decimalChars_of_digit (some.2 c digit)

theorem Mantissa.head_append (valued : Mantissa mantissa) (further : List Char) :
    ∀ c ∈ (mantissa ++ further).head?, c ≠ '+' ∧ c ≠ '-' := by
  have digits {whole : List Char} (some : Digits 10 whole) (rest : List Char) :
      ∀ c ∈ (whole ++ rest).head?, c ≠ '+' ∧ c ≠ '-' := by
    obtain ⟨c, others, begins, digit⟩ := some.head rest
    rw [begins]
    rintro first ⟨⟩
    exact ne_sign_of_mem_digitsOf digit
  cases valued with
  | whole some => exact digits some further
  | fraction some _ =>
    rw [List.append_assoc]
    exact digits some _
  | point =>
    rintro c ⟨⟩
    decide

end NumberText

namespace Number

open NumberText

variable {chars : List Char}

theorem splitRadix?_eq_some_iff {radix : Nat} {digits : List Char} :
    splitRadix? chars = some (radix, digits) ↔
      ∃ mark, (mark, radix) ∈ radixMarks ∧ chars = '0' :: mark :: digits := by
  constructor
  · intro split
    unfold splitRadix? at split
    split at split
    next mark rest =>
      split at split
      next sixteen =>
        cases split
        rcases sixteen with rfl | rfl <;> exact ⟨_, by decide, rfl⟩
      next =>
        split at split
        next eight =>
          cases split
          rcases eight with rfl | rfl <;> exact ⟨_, by decide, rfl⟩
        next =>
          split at split
          next two =>
            cases split
            rcases two with rfl | rfl <;> exact ⟨_, by decide, rfl⟩
          next => cases split
    next => cases split
  · rintro ⟨mark, marked, rfl⟩
    simp only [radixMarks, List.mem_cons, List.not_mem_nil, or_false, Prod.mk.injEq] at marked
    rcases marked with
      ⟨rfl, rfl⟩ | ⟨rfl, rfl⟩ | ⟨rfl, rfl⟩ | ⟨rfl, rfl⟩ | ⟨rfl, rfl⟩ | ⟨rfl, rfl⟩ <;> rfl

/-- Behind a radix mark only digits of that radix make a number. -/
theorem numberText_radix_iff {mark : Char} {radix : Nat} {digits : List Char}
    (marked : (mark, radix) ∈ radixMarks) :
    NumberText ('0' :: mark :: digits) ↔ Digits radix digits := by
  refine ⟨fun written => ?_, .radix marked⟩
  generalize whole : '0' :: mark :: digits = chars at written
  cases written with
  | infinity signed => cases signed <;> cases whole
  | @radix otherMark otherRadix _ otherMarked some =>
    cases whole
    have functional : ∀ known ∈ radixMarks, ∀ other ∈ radixMarks, known.1 = other.1 →
        known.2 = other.2 := by decide
    have same : radix = otherRadix := functional _ marked _ otherMarked rfl
    rwa [same]
  | @decimal sign mantissa exponent signed valued scaled =>
    have known : mark ∈ decimalChars := by
      have member : mark ∈ sign ++ (mantissa ++ exponent) := whole ▸ .tail _ (.head _)
      rcases List.mem_append.mp member with inSign | inRest
      · exact signed.mem_decimalChars mark inSign
      · rcases List.mem_append.mp inRest with inMantissa | inExponent
        · exact valued.mem_decimalChars mark inMantissa
        · exact scaled.mem_decimalChars mark inExponent
    have apart : ∀ entry ∈ radixMarks, entry.1 ∉ decimalChars := by decide
    exact absurd known (apart _ marked)

theorem toNat_lt_of_isLiteralByte {byte : UInt8} (passes : isLiteralByte byte = true) :
    byte.toNat < 0x80 := by
  simp only [isLiteralByte, Bool.or_eq_true, Bool.and_eq_true, decide_eq_true_iff,
    List.any_eq_true, beq_iff_eq] at passes
  rcases passes with ⟨_, upper⟩ | ⟨c, mark, rfl⟩
  · exact Nat.lt_of_le_of_lt (UInt8.le_iff_toNat_le.mp upper) (by decide)
  · have marks : (".eE+-".toList.all fun c => decide (c.toUInt8.toNat < 0x80)) = true := by decide
    exact of_decide_eq_true (List.all_eq_true.mp marks c mark)

/-- The last byte of a character that is not an ASCII character is not one either. -/
theorem exists_continuation {c : Char} (large : 0x80 ≤ c.toNat) :
    ∃ byte ∈ String.utf8EncodeChar c, 0x80 ≤ byte.toNat := by
  have last : 0x80 ≤ (UInt8.ofNat (c.toNat % 64 + 128)).toNat := by
    rw [UInt8.toNat_ofNat']
    omega
  refine ⟨_, ?_, last⟩
  unfold String.utf8EncodeChar
  have wide : ¬c.val.toNat ≤ 0x7f := Nat.not_le_of_lt large
  simp only [wide, if_false]
  split
  next => exact .tail _ (.head _)
  next =>
    split
    next => exact .tail _ (.tail _ (.head _))
    next => exact .tail _ (.tail _ (.tail _ (.head _)))

theorem all_isLiteralByte_iff (c : Char) :
    (String.utf8EncodeChar c).all isLiteralByte = true ↔ c ∈ decimalChars := by
  have small : ∀ c, (String.utf8EncodeChar c).all isLiteralByte = true → c.toNat < 0x80 := by
    intro c passes
    by_contra large
    obtain ⟨byte, member, continues⟩ := exists_continuation (Nat.le_of_not_lt large)
    have below := toNat_lt_of_isLiteralByte (List.all_eq_true.mp passes byte member)
    omega
  exact iff_mem_of_ascii small (by decide) (by decide +kernel) c

theorem all_isLiteralByte_flatMap_iff :
    (chars.flatMap String.utf8EncodeChar).all isLiteralByte = true ↔
      ∀ c ∈ chars, c ∈ decimalChars := by
  rw [List.all_flatMap, List.all_eq_true]
  exact forall₂_congr fun c _ => all_isLiteralByte_iff c

/-- The words that the library knows all have a letter that no decimal literal has. -/
theorem ofLiteral?_eq_of_decimalChars (decimal : ∀ c ∈ (splitSign chars).2, c ∈ decimalChars) :
    ofLiteral? chars = (DecimalLiteral.ofChars? (splitSign chars).2).map fun literal =>
      literal.toNumber (splitSign chars).1 := by
  have noWord : ∀ word : List Char, 'n' ∈ word → (splitSign chars).2.map Char.toLower ≠ word := by
    rintro _ letter rfl
    obtain ⟨c, member, lower⟩ := List.mem_map.mp letter
    have apart : (decimalChars.all fun c => c.toLower != 'n') = true := by decide
    exact absurd lower (bne_iff_ne.mp (List.all_eq_true.mp apart c (decimal c member)))
  have finite := not_or.mpr
    ⟨noWord "inf".toList (by decide), noWord "infinity".toList (by decide)⟩
  simp only [ofLiteral?]
  rw [if_neg finite, if_neg (noWord "nan".toList (by decide))]

theorem mem_decimalChars_of_isSome_ofChars? (read : (DecimalLiteral.ofChars? chars).isSome = true) :
    ∀ c ∈ chars, c ∈ decimalChars := by
  obtain ⟨mantissa, exponent, valued, scaled, rfl⟩ := DecimalLiteral.isSome_ofChars?_iff.mp read
  intro c member
  exact (List.mem_append.mp member).elim (valued.mem_decimalChars c) (scaled.mem_decimalChars c)

theorem numberText_iff_of_splitRadix?_eq_none (unmarked : splitRadix? chars = none) :
    NumberText chars ↔ (splitSign chars).2 = "Infinity".toList ∨
      (DecimalLiteral.ofChars? (splitSign chars).2).isSome = true := by
  constructor
  · intro written
    cases written with
    | infinity signed => exact .inl (splitSign_append signed (by rintro c ⟨⟩; decide))
    | radix marked _ =>
      rw [splitRadix?_eq_some_iff.mpr ⟨_, marked, rfl⟩] at unmarked
      cases unmarked
    | decimal signed valued scaled =>
      rw [splitSign_append signed (valued.head_append _)]
      exact .inr (DecimalLiteral.isSome_ofChars?_iff.mpr ⟨_, _, valued, scaled, rfl⟩)
  · obtain ⟨sign, signed, parts⟩ := exists_sign_append chars
    rintro (infinite | read)
    · rw [parts, infinite]
      exact .infinity signed
    · obtain ⟨mantissa, exponent, valued, scaled, unsigned⟩ :=
        DecimalLiteral.isSome_ofChars?_iff.mp read
      rw [parts, unsigned]
      exact .decimal signed valued scaled

/-- Of what the library reads, the bytes let through what is a number here. -/
theorem ofTrimmed_ne_nan_iff : ofTrimmed chars ≠ .nan ↔ NumberText chars := by
  unfold ofTrimmed
  split
  next radix digits marked =>
    obtain ⟨mark, known, rfl⟩ := splitRadix?_eq_some_iff.mp marked
    have radices : ∀ entry ∈ radixMarks, entry.2 = 16 ∨ entry.2 = 8 ∨ entry.2 = 2 := by decide
    rw [numberText_radix_iff known]
    exact ofRadixDigits_ne_nan_iff (radices _ known)
  next unmarked =>
    rw [numberText_iff_of_splitRadix?_eq_none unmarked]
    simp only
    split
    next infinite => exact iff_of_true nofun (.inl infinite)
    next finite =>
      rw [or_iff_right finite]
      split
      next passes =>
        rw [ofLiteral?_eq_of_decimalChars (all_isLiteralByte_flatMap_iff.mp passes)]
        cases DecimalLiteral.ofChars? (splitSign chars).2 with
        | none => exact iff_of_false (not_not_intro rfl) nofun
        | some literal => exact iff_of_true (literal.toNumber_ne_nan _) rfl
      next stopped =>
        refine iff_of_false (not_not_intro rfl) fun read => ?_
        exact stopped (all_isLiteralByte_flatMap_iff.mpr
          (mem_decimalChars_of_isSome_ofChars? read))

end Number

section Trims

variable {chars core : List Char} {drop : Char → Bool}

theorem dropWhile_append_of_head {front rest : List Char} (all : ∀ c ∈ front, drop c = true)
    (stops : ∀ c ∈ rest.head?, drop c = false) : (front ++ rest).dropWhile drop = rest := by
  rw [List.dropWhile_append_of_pos all]
  cases rest with
  | nil => rfl
  | cons c rest => exact List.dropWhile_cons_of_neg (Bool.eq_false_iff.mp (stops c rfl))

theorem head_dropWhile (chars : List Char) :
    ∀ c ∈ (chars.dropWhile drop).head?, drop c = false := by
  intro c first
  have found := List.head?_dropWhile_not drop chars
  rw [Option.mem_def.mp first] at found
  simpa using found

theorem Trims.eq_trimBoth (trims : Trims chars core) : core = trimBoth surroundsNumber chars := by
  obtain ⟨⟨front, back, parts, before, behind⟩, first, last⟩ := trims
  cases core with
  | nil =>
    have all : ∀ c ∈ chars, surroundsNumber c = true := by
      intro c member
      rw [parts, List.append_nil] at member
      exact (List.mem_append.mp member).elim (before c) (behind c)
    rw [trimBoth, List.dropWhile_eq_nil_iff.mpr all]
    rfl
  | cons c rest =>
    have left : chars.dropWhile surroundsNumber = (c :: rest) ++ back := by
      rw [parts, List.append_assoc]
      exact dropWhile_append_of_head before first
    have right : ((c :: rest) ++ back).reverse.dropWhile surroundsNumber = (c :: rest).reverse := by
      rw [List.reverse_append]
      refine dropWhile_append_of_head (fun c member => behind c (List.mem_reverse.mp member)) ?_
      rw [List.head?_reverse]
      exact last
    rw [trimBoth, left, right, List.reverse_reverse]

theorem trims_trimBoth (chars : List Char) : Trims chars (trimBoth surroundsNumber chars) := by
  have left := @List.takeWhile_append_dropWhile _ surroundsNumber chars
  have right := @List.takeWhile_append_dropWhile _ surroundsNumber
    (chars.dropWhile surroundsNumber).reverse
  have parts : trimBoth surroundsNumber chars ++
      ((chars.dropWhile surroundsNumber).reverse.takeWhile surroundsNumber).reverse =
        chars.dropWhile surroundsNumber := by
    rw [trimBoth, ← List.reverse_append, right, List.reverse_reverse]
  have whole : chars = chars.takeWhile surroundsNumber ++ trimBoth surroundsNumber chars ++
      ((chars.dropWhile surroundsNumber).reverse.takeWhile surroundsNumber).reverse := by
    rw [List.append_assoc, parts, left]
  refine ⟨⟨_, _, whole, fun c => List.mem_takeWhile_imp, fun c member => ?_⟩, ?first, ?last⟩
  · exact List.mem_takeWhile_imp (List.mem_reverse.mp member)
  case first =>
    intro c first
    refine head_dropWhile chars c ?_
    rw [← parts, List.head?_append, Option.mem_def.mp first]
    rfl
  case last =>
    rw [trimBoth, List.getLast?_reverse]
    exact head_dropWhile _

theorem trims_iff : Trims chars core ↔ core = trimBoth surroundsNumber chars := by
  refine ⟨Trims.eq_trimBoth, ?_⟩
  rintro rfl
  exact trims_trimBoth chars

end Trims

theorem Number.ofText_eq_nan_iff (text : String) :
    ofText text = .nan ↔ trimBoth surroundsNumber text.toList ≠ [] ∧
      ¬NumberText (trimBoth surroundsNumber text.toList) := by
  unfold ofText
  split
  next empty =>
    rw [empty]
    exact iff_of_false nofun fun remains => remains.1 rfl
  next nonempty =>
    rw [← ofTrimmed_ne_nan_iff, not_not]
    exact (and_iff_right nonempty).symm

/-- A text is no number exactly if something remains of it when the white space around it is left
out and this is not the text of a number. -/
theorem Value.toNumber_text_eq_nan_iff (text : Text) :
    ∃ core, (∀ other, Trims text.encoding.chars other ↔ other = core) ∧
      ((Value.text text).toNumber = .nan ↔ core ≠ [] ∧ ¬NumberText core) := by
  have chars : text.toString.toList = text.encoding.chars := String.toList_ofList
  refine ⟨trimBoth surroundsNumber text.encoding.chars, fun _ => trims_iff, ?_⟩
  rw [← chars]
  exact Number.ofText_eq_nan_iff text.toString

/-- A word for NaN or for an infinity is known to the library but not here. -/
example : (Value.text (.ofString "+INF")).toNumber = .nan := rfl

end ObjectModel
