import ObjectModel.Proofs.Text.Roundtrip

/-!
# Texts as sequences of units

Whichever way a text is stored, an operation on it is an operation on the list of its units.  The
texts that are built from strings and units, in any nesting of the operations, are narrow exactly if
all their units are ASCII.  So the units of such a text determine it, however it was built.
-/

namespace ObjectModel

namespace Utf16

/-- Whether every surrogate among units is half of a pair. -/
inductive Paired : List UInt16 → Prop
  | nil : Paired []
  | single {unit : UInt16} {rest : List UInt16} (noHigh : isHighSurrogate unit = false)
      (noLow : isLowSurrogate unit = false) (paired : Paired rest) : Paired (unit :: rest)
  | pair {high low : UInt16} {rest : List UInt16} (isHigh : isHighSurrogate high = true)
      (isLow : isLowSurrogate low = true) (paired : Paired rest) : Paired (high :: low :: rest)

variable {units : List UInt16}

theorem Paired.encodeChar_append (c : Char) (paired : Paired units) :
    Paired (encodeChar c ++ units) := by
  have valid := valid_toNat c
  unfold encodeChar
  split
  next small =>
    apply Paired.single (isHighSurrogate_ofNat small) _ paired
    simp only [isLowSurrogate, UInt16.toNat_ofNat', Bool.and_eq_false_iff,
      decide_eq_false_iff_not]
    omega
  next large =>
    apply Paired.pair _ _ paired
    · simp only [isHighSurrogate, UInt16.toNat_ofNat', Bool.and_eq_true, decide_eq_true_iff]
      omega
    · simp only [isLowSurrogate, UInt16.toNat_ofNat', Bool.and_eq_true, decide_eq_true_iff]
      omega

theorem decode_cons_of_single {unit : UInt16} (noHigh : isHighSurrogate unit = false) :
    decode (unit :: units) = single unit :: decode units := by
  cases units with
  | nil => rfl
  | cons next rest => rw [decode, noHigh, Bool.false_and, if_neg Bool.false_ne_true]

theorem Paired.exists_decode (paired : Paired units) :
    ∃ chars : List Char, decode units = chars.map .char := by
  induction paired with
  | nil => exact ⟨[], rfl⟩
  | @single unit rest noHigh noLow paired inductionHypothesis =>
    obtain ⟨chars, decoded⟩ := inductionHypothesis
    have whole : Utf16.single unit = .char (Char.ofNat unit.toNat) := by
      simp only [Utf16.single, noHigh, noLow, Bool.or_self, Bool.false_eq_true, if_false]
    exact ⟨_ :: chars, by rw [decode_cons_of_single noHigh, whole, decoded, List.map_cons]⟩
  | @pair high low rest isHigh isLow paired inductionHypothesis =>
    obtain ⟨chars, decoded⟩ := inductionHypothesis
    refine ⟨Utf16.pair high low :: chars, ?_⟩
    rw [decode, isHigh, isLow, Bool.and_self, if_pos rfl, decoded, List.map_cons]

/-- Units have no lone surrogate exactly if they encode characters. -/
theorem paired_iff : Paired units ↔ ∃ chars, encode chars = units := by
  constructor
  · intro paired
    obtain ⟨chars, decoded⟩ := paired.exists_decode
    exact ⟨chars, encode_of_decode decoded⟩
  · rintro ⟨chars, rfl⟩
    induction chars with
    | nil => exact .nil
    | cons c rest inductionHypothesis => exact inductionHypothesis.encodeChar_append c

end Utf16

namespace Case

variable {byte : UInt8} {bytes : List UInt8}

theorem mapChar_ascii {expansions : List (Nat × List Nat)} {letters : CaseRun}
    {runs : List CaseRun} (expanded : ∀ expansion ∈ expansions, 0x80 ≤ expansion.1)
    (others : ∀ run ∈ runs, 0x80 ≤ run.first) (gapless : letters.stride = 1) {c : Char}
    (ascii : c.toNat < 0x80) :
    mapChar expansions (letters :: runs) c =
      [if letters.first ≤ c.toNat ∧ c.toNat ≤ letters.last then
        Char.ofNat (letters.target + (c.toNat - letters.first)) else c] := by
  have unexpanded : expansions.find? (fun expansion => expansion.1 == c.toNat) = none := by
    apply List.find?_eq_none.mpr
    intro expansion member same
    have large := expanded expansion member
    have equal := eq_of_beq same
    omega
  have beyond : CaseRun.map? runs c.toNat = none := by
    refine Option.map_eq_none_iff.mpr (List.find?_eq_none.mpr ?_)
    intro run member within
    have large := others run member
    simp only [Bool.and_eq_true, decide_eq_true_iff] at within
    omega
  unfold CaseRun.map? at beyond
  simp only [mapChar, unexpanded, CaseRun.map?, List.find?_cons, gapless, Nat.mod_one,
    beq_self_eq_true, Bool.and_true]
  split
  next inside =>
    rw [Bool.and_eq_true, decide_eq_true_iff, decide_eq_true_iff] at inside
    rw [if_pos inside]
    rfl
  next outside =>
    rw [Bool.and_eq_false_iff, decide_eq_false_iff_not, decide_eq_false_iff_not] at outside
    rw [beyond, if_neg (by omega)]
    rfl

theorem toNat_charOfByte (ascii : byte < 0x80) : (Char.ofNat byte.toNat).toNat = byte.toNat := by
  have small := UInt8.lt_iff_toNat_lt.mp ascii
  rw [Char.ofNat, dif_pos (.inl (Nat.lt_trans small (by decide)))]
  rfl

theorem toNat_lowerByte (ascii : byte < 0x80) :
    (lowerByte byte).toNat =
      if 0x41 ≤ byte.toNat ∧ byte.toNat ≤ 0x5A then 0x61 + (byte.toNat - 0x41) else byte.toNat := by
  have small : byte.toNat < 0x80 := UInt8.lt_iff_toNat_lt.mp ascii
  have letters : 0x41 ≤ byte ∧ byte ≤ 0x5A ↔ 0x41 ≤ byte.toNat ∧ byte.toNat ≤ 0x5A := by
    rw [UInt8.le_iff_toNat_le, UInt8.le_iff_toNat_le]
    exact Iff.rfl
  simp only [lowerByte, letters]
  split
  next letter =>
    have sum : (byte + 0x20).toNat = (byte.toNat + 0x20) % 0x100 := UInt8.toNat_add byte 0x20
    omega
  next => rfl

theorem toNat_upperByte (ascii : byte < 0x80) :
    (upperByte byte).toNat =
      if 0x61 ≤ byte.toNat ∧ byte.toNat ≤ 0x7A then 0x41 + (byte.toNat - 0x61) else byte.toNat := by
  have small : byte.toNat < 0x80 := UInt8.lt_iff_toNat_lt.mp ascii
  have letters : 0x61 ≤ byte ∧ byte ≤ 0x7A ↔ 0x61 ≤ byte.toNat ∧ byte.toNat ≤ 0x7A := by
    rw [UInt8.le_iff_toNat_le, UInt8.le_iff_toNat_le]
    exact Iff.rfl
  simp only [upperByte, letters]
  split
  next letter =>
    have difference : (byte - 0x20).toNat = (0x100 - 0x20 + byte.toNat) % 0x100 :=
      UInt8.toNat_sub byte 0x20
    omega
  next => rfl

theorem lowerChar_ascii (ascii : byte < 0x80) :
    lowerChar (Char.ofNat byte.toNat) = [Char.ofNat (lowerByte byte).toNat] := by
  have number := toNat_charOfByte ascii
  have mapped := @mapChar_ascii lowercaseExpansions ⟨0x41, 0x5A, 1, 0x61⟩ lowercaseRuns.tail
    (by decide) (by decide +kernel) rfl _ (number ▸ UInt8.lt_iff_toNat_lt.mp ascii)
  refine mapped.trans (congrArg (fun c => [c]) ?_)
  rw [number, toNat_lowerByte ascii]
  exact (apply_ite Char.ofNat _ _ _).symm

theorem upperChar_ascii (ascii : byte < 0x80) :
    upperChar (Char.ofNat byte.toNat) = [Char.ofNat (upperByte byte).toNat] := by
  have number := toNat_charOfByte ascii
  have mapped := @mapChar_ascii uppercaseExpansions ⟨0x61, 0x7A, 1, 0x41⟩ uppercaseRuns.tail
    (by decide +kernel) (by decide +kernel) rfl _ (number ▸ UInt8.lt_iff_toNat_lt.mp ascii)
  refine mapped.trans (congrArg (fun c => [c]) ?_)
  rw [number, toNat_upperByte ascii]
  exact (apply_ite Char.ofNat _ _ _).symm

/-- ASCII characters are mapped without regard to their neighbours, as no sigma is among them. -/
theorem lowerAfter_ascii (before : List Char) (ascii : ∀ byte ∈ bytes, byte < 0x80) :
    lowerAfter before (bytes.map fun byte => Char.ofNat byte.toNat) =
      (bytes.map lowerByte).map fun byte => Char.ofNat byte.toNat := by
  induction bytes generalizing before with
  | nil => rfl
  | cons byte rest inductionHypothesis =>
    have small := ascii byte List.mem_cons_self
    have noSigma : Char.ofNat byte.toNat ≠ 'Σ' := by
      intro same
      have number : byte.toNat = 0x3A3 :=
        (toNat_charOfByte small).symm.trans (congrArg Char.toNat same)
      have bound := byte.toNat_lt
      omega
    have later := inductionHypothesis (Char.ofNat byte.toNat :: before)
      fun other member => ascii other (List.mem_cons_of_mem _ member)
    rw [List.map_cons, lowerAfter, if_neg noSigma, lowerChar_ascii small, later]
    rfl

theorem upper_ascii (ascii : ∀ byte ∈ bytes, byte < 0x80) :
    upper (bytes.map fun byte => Char.ofNat byte.toNat) =
      (bytes.map upperByte).map fun byte => Char.ofNat byte.toNat := by
  rw [upper, List.flatMap_map, List.map_map, List.map_eq_flatMap]
  simp only [List.flatMap_def]
  refine congrArg List.flatten (List.map_congr_left fun byte member => ?_)
  exact upperChar_ascii (ascii byte member)

end Case

namespace Encoding

variable {text left right : Encoding}

theorem unitAt?_eq (text : Encoding) (position : Nat) :
    text.unitAt? position = text.units[position]? := by
  cases text with
  | narrow bytes => exact List.getElem?_map.symm
  | wide units => rfl

theorem map_units_charAt? (text : Encoding) (position : Nat) :
    (text.charAt? position).map units = text.units[position]?.map fun unit => [unit] := by
  cases text with
  | narrow bytes =>
    simp only [charAt?, units_narrow, List.getElem?_map, Option.map_map]
    rfl
  | wide units =>
    simp only [charAt?, units_wide, Option.map_map, Function.comp_def, units_ofUnits]

theorem units_substring (text : Encoding) (start stop : Nat) :
    (text.substring start stop).units = (text.units.take stop).drop start := by
  have clamped {α : Type} (members : List α) :
      (members.take (min stop members.length)).drop (min start (min stop members.length)) =
        (members.take stop).drop start := by
    rw [← List.take_eq_take_min, ← List.length_take]
    rcases Nat.le_total start (members.take stop).length with inside | beyond
    · rw [Nat.min_eq_left inside]
    · rw [Nat.min_eq_right beyond, List.drop_length, List.drop_of_length_le beyond]
  cases text with
  | narrow bytes =>
    change ((bytes.take _).drop _).map UInt8.toUInt16 = _
    rw [units_narrow, ← List.map_take, ← List.map_drop]
    exact congrArg _ (clamped bytes)
  | wide units => exact (units_ofUnits _).trans (clamped units)

theorem units_concat (left right : Encoding) :
    (left.concat right).units = left.units ++ right.units := by
  cases left with
  | narrow leftBytes =>
    cases right with
    | narrow rightBytes => exact List.map_append
    | wide rightUnits => rfl
  | wide leftUnits => rfl

theorem sameUnits_iff : left.sameUnits right = true ↔ left.units = right.units := by
  have mixed : (left.length == right.length && left.units == right.units) = true ↔
      left.units = right.units := by
    simp only [Bool.and_eq_true, beq_iff_eq, and_iff_right_iff_imp]
    intro same
    rw [← length_units, same, length_units]
  cases left with
  | narrow leftBytes =>
    cases right with
    | narrow rightBytes => exact beq_iff_eq.trans (List.map_inj_right toUInt16_injective).symm
    | wide rightUnits => exact mixed
  | wide leftUnits =>
    cases right with
    | narrow rightBytes => exact mixed
    | wide rightUnits => exact beq_iff_eq

/-- Text without lone surrogates, and no other, has the units of the string that it shows as. -/
theorem units_ofString_toString_iff {units : List UInt16} :
    (ofString (ofUnits units).toString).units = units ↔ Utf16.Paired units := by
  rw [Utf16.paired_iff]
  constructor
  · intro same
    exact ⟨_, (units_ofChars _).symm.trans same⟩
  · rintro ⟨chars, rfl⟩
    have built : ofUnits (Utf16.encode chars) = ofChars chars := by
      apply (canonical_ofUnits _).eq_of_units (canonical_ofChars chars)
      rw [units_ofUnits, units_ofChars]
    rw [built, ofString, toString, String.toList_ofList, chars_ofChars, units_ofChars]

theorem lower_eq (canonical : text.Canonical) : text.lower = ofChars (Case.lower text.chars) := by
  cases text with
  | wide units => rfl
  | narrow bytes =>
    have shown : (narrow bytes).lower.chars = Case.lower (narrow bytes).chars :=
      (Case.lowerAfter_ascii [] (canonical_narrow_iff.mp canonical)).symm
    rw [← shown]
    exact (ofChars_chars_narrow (canonical_lower canonical)).symm

theorem upper_eq (canonical : text.Canonical) : text.upper = ofChars (Case.upper text.chars) := by
  cases text with
  | wide units => rfl
  | narrow bytes =>
    have shown : (narrow bytes).upper.chars = Case.upper (narrow bytes).chars :=
      (Case.upper_ascii (canonical_narrow_iff.mp canonical)).symm
    rw [← shown]
    exact (ofChars_chars_narrow (canonical_upper canonical)).symm

/-- The texts that the operations build from strings and units, in any nesting. -/
inductive Built : Encoding → Prop
  | ofString (string : String) : Built (ofString string)
  | ofUnits (units : List UInt16) : Built (ofUnits units)
  | empty : Built empty
  | charAt {text piece : Encoding} {position : Nat} (built : Built text)
      (found : text.charAt? position = some piece) : Built piece
  | substring {text : Encoding} (built : Built text) (start stop : Nat) :
      Built (text.substring start stop)
  | concat {left right : Encoding} (builtLeft : Built left) (builtRight : Built right) :
      Built (left.concat right)
  | lower {text : Encoding} (built : Built text) : Built text.lower
  | upper {text : Encoding} (built : Built text) : Built text.upper

theorem Built.canonical (built : text.Built) : text.Canonical := by
  induction built with
  | ofString string => exact canonical_ofChars string.toList
  | ofUnits units => exact canonical_ofUnits units
  | empty => exact canonical_empty
  | charAt _ found inductionHypothesis => exact canonical_charAt inductionHypothesis found
  | substring _ start stop inductionHypothesis =>
    exact canonical_substring inductionHypothesis start stop
  | concat _ _ canonicalLeft canonicalRight => exact canonical_concat canonicalLeft canonicalRight
  | lower _ inductionHypothesis => exact canonical_lower inductionHypothesis
  | upper _ inductionHypothesis => exact canonical_upper inductionHypothesis

theorem Canonical.ofUnits_units (canonical : text.Canonical) : ofUnits text.units = text :=
  (canonical_ofUnits text.units).eq_of_units canonical (units_ofUnits text.units)

theorem built_encoding (text : Text) : text.encoding.Built := by
  rw [← text.canonical.ofUnits_units]
  exact .ofUnits text.encoding.units

/-- What the operations on a text do to its units. -/
structure ActsOnUnits (text : Encoding) : Prop where
  length : text.length = text.units.length
  unitAt? : ∀ position, text.unitAt? position = text.units[position]?
  charAt? : ∀ position,
    (text.charAt? position).map units = text.units[position]?.map fun unit => [unit]
  substring : ∀ start stop, (text.substring start stop).units = (text.units.take stop).drop start
  concat : ∀ other : Encoding, (text.concat other).units = text.units ++ other.units
  sameUnits : ∀ other : Encoding, text.sameUnits other = true ↔ text.units = other.units

theorem actsOnUnits (text : Encoding) : text.ActsOnUnits where
  length := text.length_units.symm
  unitAt? := text.unitAt?_eq
  charAt? := text.map_units_charAt?
  substring := text.units_substring
  concat := text.units_concat
  sameUnits _ := sameUnits_iff

/-- The texts that are built, as all engine text is, are narrow exactly if their units are ASCII,
and their units determine them.  The operations act on units alone, however a text is stored.  A
string is read back from its text, and units from the string that their text shows as, unless there
is a lone surrogate among them. -/
theorem built_texts_are_units (builtLeft : left.Built) (builtRight : right.Built) :
    (∀ text : Text, text.encoding.Built) ∧
      (left.isNarrow = true ↔ ∀ unit ∈ left.units, unit < 0x80) ∧
      (left.units = right.units → left = right) ∧ (∀ text : Encoding, text.ActsOnUnits) ∧
      (left.lower = ofChars (Case.lower left.chars) ∧
        left.upper = ofChars (Case.upper left.chars)) ∧
      (∀ string, (ofString string).units = Utf16.encode string.toList ∧
        (ofString string).toString = string) ∧
      ∀ units, (ofUnits units).units = units ∧
        ((ofString (ofUnits units).toString).units = units ↔ Utf16.Paired units) := by
  refine ⟨built_encoding, builtLeft.canonical,
    builtLeft.canonical.eq_of_units builtRight.canonical, actsOnUnits, ?_, ?_, ?_⟩
  · exact ⟨lower_eq builtLeft.canonical, upper_eq builtLeft.canonical⟩
  · exact fun string => ⟨units_ofChars string.toList, Text.toString_ofString string⟩
  · exact fun units => ⟨units_ofUnits units, units_ofString_toString_iff⟩

/-- What is cut out of a wide text is as narrow as a text of its own. -/
theorem built_texts_are_units_cut :
    (ofString "no\u00EBl").substring 0 2 = ofString "no" ∧
      ((ofString "no\u00EBl").substring 0 2).isNarrow = true := by
  obtain ⟨_, narrow, same, _⟩ :=
    built_texts_are_units (.substring (.ofString "no\u00EBl") 0 2) (.ofString "no")
  have ascii : (((ofString "no\u00EBl").substring 0 2).units.all fun unit => unit < 0x80) = true :=
    by decide +kernel
  refine ⟨same (by decide +kernel), narrow.mpr fun unit member => ?_⟩
  exact of_decide_eq_true (List.all_eq_true.mp ascii unit member)

end Encoding

end ObjectModel
