import Mathlib.Data.List.Chain
import ObjectModel.Proofs.Text.Units

/-!
# The order of texts

Units spell the code points that they encode one after another, with no pair of surrogates taken
apart.  There is exactly one way to read units so, which is to decode them.  Texts are ordered like
the lists of the numbers of their code points.  Since the numbers determine the units, this is a
total order in which no two texts are equal but those that have the same units, however they are
stored.
-/

namespace ObjectModel

theorem CodePoint.value_lt (point : CodePoint) : point.value < 0x110000 := by
  cases point with
  | char c =>
    have valid := valid_toNat c
    rw [CodePoint.value]
    omega
  | lone surrogate => exact Nat.lt_trans surrogate.toNat_lt (by decide)

namespace Utf16

/-- The units that encode the code point of a number. -/
def unitsOf (number : Nat) : List UInt16 :=
  if number < 0x10000 then [UInt16.ofNat number]
  else
    [UInt16.ofNat (0xD800 + (number - 0x10000) / 0x400),
      UInt16.ofNat (0xDC00 + (number - 0x10000) % 0x400)]

/-- Whether units are the encodings of the code points of some numbers, one after another.  A
surrogate may stand for itself, but not before one that it makes a pair with. -/
structure Spells (numbers : List Nat) (units : List UInt16) : Prop where
  encoded : numbers.flatMap unitsOf = units
  unpaired : numbers.IsChain fun first second =>
    ¬(0xD800 ≤ first ∧ first < 0xDC00 ∧ 0xDC00 ≤ second ∧ second < 0xE000)
  bounded : ∀ number ∈ numbers, number < 0x110000

variable {unit high low next : UInt16} {rest units : List UInt16} {number : Nat}
  {numbers : List Nat}

theorem encodeChar_eq (c : Char) : encodeChar c = unitsOf c.toNat := rfl

theorem unitsOf_toNat (unit : UInt16) : unitsOf unit.toNat = [unit] := by
  rw [unitsOf, if_pos unit.toNat_lt, UInt16.ofNat_toNat]

theorem value_single (unit : UInt16) : (single unit).value = unit.toNat := by
  have bound := unit.toNat_lt
  unfold single
  split
  next => rfl
  next noHalf =>
    simp only [isHighSurrogate, isLowSurrogate, Bool.or_eq_true, Bool.and_eq_true,
      decide_eq_true_iff] at noHalf
    have valid : unit.toNat.isValidChar := by
      unfold Nat.isValidChar
      omega
    rw [CodePoint.value, Char.ofNat, dif_pos valid]
    rfl

theorem unitsOf_toNat_pair (isHigh : isHighSurrogate high = true)
    (isLow : isLowSurrogate low = true) : unitsOf (pair high low).toNat = [high, low] :=
  encodeChar_pair isHigh isLow

theorem le_toNat_pair (isHigh : isHighSurrogate high = true) (isLow : isLowSurrogate low = true) :
    0x10000 ≤ (pair high low).toNat := by
  refine Nat.le_of_not_lt fun small => ?_
  have both := unitsOf_toNat_pair isHigh isLow
  rw [unitsOf, if_pos small] at both
  have lengths : 1 = 2 := congrArg List.length both
  exact absurd lengths (by decide)

theorem head?_values_decode (first : number ∈ ((decode (unit :: rest)).map CodePoint.value).head?) :
    number = unit.toNat ∨ 0x10000 ≤ number := by
  cases rest with
  | nil =>
    cases first
    exact .inl (value_single unit)
  | cons next rest =>
    rw [decode] at first
    split at first
    next isPair =>
      obtain ⟨isHigh, isLow⟩ := Bool.and_eq_true_iff.mp isPair
      have same : (pair unit next).toNat = number := Option.some.inj first
      exact .inr (same ▸ le_toNat_pair isHigh isLow)
    next =>
      cases first
      exact .inl (value_single unit)

theorem encoded_decode (units : List UInt16) :
    ((decode units).map CodePoint.value).flatMap unitsOf = units := by
  induction units using decode.induct with
  | case1 => rfl
  | case2 unit =>
    rw [decode, List.map_singleton, List.flatMap_singleton, value_single, unitsOf_toNat]
  | case3 unit next rest isPair inductionHypothesis =>
    obtain ⟨isHigh, isLow⟩ := Bool.and_eq_true_iff.mp isPair
    rw [decode, if_pos isPair, List.map_cons, List.flatMap_cons, inductionHypothesis,
      CodePoint.value, unitsOf_toNat_pair isHigh isLow]
    rfl
  | case4 unit next rest noPair inductionHypothesis =>
    rw [decode, if_neg noPair, List.map_cons, List.flatMap_cons, inductionHypothesis,
      value_single, unitsOf_toNat]
    rfl

theorem unpaired_decode (units : List UInt16) :
    ((decode units).map CodePoint.value).IsChain fun first second =>
      ¬(0xD800 ≤ first ∧ first < 0xDC00 ∧ 0xDC00 ≤ second ∧ second < 0xE000) := by
  induction units using decode.induct with
  | case1 => exact .nil
  | case2 unit => exact .singleton _
  | case3 unit next rest isPair inductionHypothesis =>
    obtain ⟨isHigh, isLow⟩ := Bool.and_eq_true_iff.mp isPair
    have large := le_toNat_pair isHigh isLow
    rw [decode, if_pos isPair, List.map_cons, CodePoint.value]
    exact inductionHypothesis.cons fun second _ => by omega
  | case4 unit next rest noPair inductionHypothesis =>
    rw [decode, if_neg noPair, List.map_cons, value_single]
    refine inductionHypothesis.cons fun second first => ?_
    -- A low surrogate comes first only if it is the next unit itself.
    have place := head?_values_decode first
    simp only [isHighSurrogate, isLowSurrogate, Bool.and_eq_true, decide_eq_true_iff] at noPair
    omega

/-- To decode units is to read what they spell. -/
theorem spells_decode (units : List UInt16) :
    Spells ((decode units).map CodePoint.value) units where
  encoded := encoded_decode units
  unpaired := unpaired_decode units
  bounded number member := by
    obtain ⟨point, _, rfl⟩ := List.mem_map.mp member
    exact CodePoint.value_lt point

theorem decode_cons_of_unpaired
    (unpaired : ∀ next ∈ rest.head?, (isHighSurrogate unit && isLowSurrogate next) = false) :
    decode (unit :: rest) = single unit :: decode rest := by
  cases rest with
  | nil => rfl
  | cons next rest => rw [decode, unpaired next rfl, if_neg Bool.false_ne_true]

theorem low_of_head?_unitsOf (bounded : number < 0x110000)
    (first : next ∈ (unitsOf number ++ rest).head?) (isLow : isLowSurrogate next = true) :
    0xDC00 ≤ number ∧ number < 0xE000 := by
  simp only [isLowSurrogate, Bool.and_eq_true, decide_eq_true_iff] at isLow
  unfold unitsOf at first
  split at first
  next small =>
    cases first
    rw [UInt16.toNat_ofNat', Nat.mod_eq_of_lt small] at isLow
    exact isLow
  next large =>
    cases first
    rw [UInt16.toNat_ofNat'] at isLow
    omega

theorem Spells.values_decode (spells : Spells numbers units) :
    (decode units).map CodePoint.value = numbers := by
  obtain ⟨rfl, unpaired, bounded⟩ := spells
  induction numbers with
  | nil => rfl
  | cons number others inductionHypothesis =>
    have boundedOthers : ∀ other ∈ others, other < 0x110000 := fun other member =>
      bounded other (List.mem_cons_of_mem _ member)
    have read := inductionHypothesis unpaired.tail boundedOthers
    have bound := bounded number List.mem_cons_self
    rw [List.flatMap_cons]
    rcases Nat.lt_or_ge number 0x10000 with small | large
    · have value : (UInt16.ofNat number).toNat = number := by
        rw [UInt16.toNat_ofNat', Nat.mod_eq_of_lt small]
      rw [unitsOf, if_pos small, List.singleton_append, decode_cons_of_unpaired, List.map_cons,
        value_single, value, read]
      intro next first
      refine Bool.eq_false_iff.mpr fun isPair => ?_
      obtain ⟨isHigh, isLow⟩ := Bool.and_eq_true_iff.mp isPair
      simp only [isHighSurrogate, value, Bool.and_eq_true, decide_eq_true_iff] at isHigh
      cases others with
      | nil => cases first
      | cons second others =>
        rw [List.flatMap_cons] at first
        have low := low_of_head?_unitsOf (boundedOthers second List.mem_cons_self) first isLow
        exact (List.isChain_cons_cons.mp unpaired).1 ⟨isHigh.1, isHigh.2, low.1, low.2⟩
    · have valid : number.isValidChar := by
        unfold Nat.isValidChar
        omega
      have value : (Char.ofNat number).toNat = number := by
        rw [Char.ofNat, dif_pos valid]
        rfl
      have decoded := decode_encodeChar_append (Char.ofNat number) (others.flatMap unitsOf)
      rw [encodeChar_eq, value] at decoded
      rw [decoded, List.map_cons, CodePoint.value, value, read]

/-- Units spell nothing but what is decoded from them. -/
theorem spells_iff : Spells numbers units ↔ numbers = (decode units).map CodePoint.value := by
  constructor
  · exact fun spells => spells.values_decode.symm
  · rintro rfl
    exact spells_decode units

end Utf16

theorem compare_eq_lt_iff {left right : List Nat} :
    Ord.compare left right = .lt ↔ left < right := by
  induction left generalizing right with
  | nil => cases right <;> simp
  | cons first others inductionHypothesis =>
    cases right with
    | nil => simp
    | cons second rest =>
      rw [List.compare_cons_cons, Ordering.then_eq_lt, Nat.compare_eq_lt, Nat.compare_eq_eq,
        inductionHypothesis, List.cons_lt_cons_iff]

namespace Encoding

variable {first second third : Encoding}

/-- The numbers of the code points of a text. -/
def numbers (text : Encoding) : List Nat := text.codePoints.map CodePoint.value

theorem numbers_narrow (bytes : List UInt8) : (narrow bytes).numbers = bytes.map UInt8.toNat := by
  induction bytes with
  | nil => rfl
  | cons byte rest inductionHypothesis =>
    have noHigh : Utf16.isHighSurrogate byte.toUInt16 = false := by
      have small := byte.toNat_lt
      simp only [Utf16.isHighSurrogate, UInt8.toNat_toUInt16, Bool.and_eq_false_iff,
        decide_eq_false_iff_not]
      omega
    have decoded : (narrow (byte :: rest)).codePoints =
        Utf16.single byte.toUInt16 :: (narrow rest).codePoints :=
      Utf16.decode_cons_of_single noHigh
    rw [numbers, decoded, List.map_cons, Utf16.value_single, UInt8.toNat_toUInt16]
    exact congrArg _ inductionHypothesis

theorem compare_map_toNat (left right : List UInt8) :
    Ord.compare (left.map UInt8.toNat) (right.map UInt8.toNat) = Ord.compare left right := by
  have byte (a b : UInt8) : Ord.compare a.toNat b.toNat = Ord.compare a b := by
    simp only [Ord.compare, compareOfLessAndEq, UInt8.lt_iff_toNat_lt, ← UInt8.toNat_inj]
  induction left generalizing right with
  | nil => cases right <;> rfl
  | cons first others inductionHypothesis =>
    cases right with
    | nil => rfl
    | cons second rest =>
      rw [List.map_cons, List.map_cons, List.compare_cons_cons, List.compare_cons_cons, byte,
        inductionHypothesis]

theorem compare_eq (left right : Encoding) :
    left.compare right = Ord.compare left.numbers right.numbers := by
  cases left with
  | wide leftUnits => rfl
  | narrow leftBytes =>
    cases right with
    | wide rightUnits => rfl
    | narrow rightBytes =>
      rw [numbers_narrow, numbers_narrow, compare_map_toNat]
      rfl

/-- The numbers of its code points determine a text. -/
theorem numbers_inj : first.numbers = second.numbers ↔ first.units = second.units := by
  constructor
  · intro same
    rw [← Utf16.encoded_decode first.units, ← Utf16.encoded_decode second.units]
    exact congrArg (List.flatMap Utf16.unitsOf) same
  · intro same
    rw [numbers, codePoints, same]
    rfl

/-- The order of texts is total, and texts are equal in it exactly if they are equal.  It depends on
their units alone, and it is the lexicographic order of the numbers of the code points that the
units spell. -/
theorem compare_orders (first second third : Encoding) :
    (second.compare first = (first.compare second).swap ∧
        ((first.compare second).isLE = true ∨ (second.compare first).isLE = true) ∧
        ((first.compare second).isLE = true → (second.compare third).isLE = true →
          (first.compare third).isLE = true)) ∧
      ((first.compare second = .eq ↔ first.sameUnits second = true) ∧
        (first.sameUnits second = true ↔ first.units = second.units)) ∧
      (∀ otherFirst otherSecond : Encoding, otherFirst.units = first.units →
        otherSecond.units = second.units →
          otherFirst.compare otherSecond = first.compare second) ∧
      (∀ (text : Encoding) numbers, Utf16.Spells numbers text.units ↔ numbers = text.numbers) ∧
      (first.compare second = .lt ↔ first.numbers < second.numbers) ∧
      (first.compare second = .gt ↔ second.numbers < first.numbers) := by
  simp only [compare_eq]
  have swapped : Ord.compare second.numbers first.numbers =
      (Ord.compare first.numbers second.numbers).swap := Std.OrientedOrd.eq_swap
  refine ⟨⟨swapped, ?_, Std.TransOrd.isLE_trans⟩, ⟨?_, sameUnits_iff⟩, ?_, ?_, ?_, ?_⟩
  · rw [swapped]
    cases Ord.compare first.numbers second.numbers <;> simp
  · rw [Std.LawfulEqOrd.compare_eq_iff_eq, numbers_inj, sameUnits_iff]
  · intro otherFirst otherSecond sameFirst sameSecond
    rw [numbers_inj.mpr sameFirst, numbers_inj.mpr sameSecond]
  · exact fun text numbers => Utf16.spells_iff
  · exact compare_eq_lt_iff
  · rw [← compare_eq_lt_iff, swapped]
    cases Ord.compare first.numbers second.numbers <;> simp

/-- A lone surrogate comes before the character after all surrogates, and that one before a pair
with the same surrogate, though the unit that it consists of is larger. -/
theorem compare_orders_surrogates :
    ((wide [0xD83D]).compare (wide [0xE000])).isLE = true ∧
      ((wide [0xE000]).compare (wide [0xD83D, 0xDE00])).isLE = true ∧
      ((wide [0xD83D]).compare (wide [0xD83D, 0xDE00])).isLE = true := by
  have before : ((wide [0xD83D]).compare (wide [0xE000])).isLE = true := by decide
  have after : ((wide [0xE000]).compare (wide [0xD83D, 0xDE00])).isLE = true := by decide
  exact ⟨before, after, (compare_orders _ (wide [0xE000]) _).1.2.2 before after⟩

end Encoding

end ObjectModel
