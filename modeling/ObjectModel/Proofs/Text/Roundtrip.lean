import ObjectModel.Text.Basic

/-!
# Strings as texts

A string has no lone surrogates, so the text of a string shows as that string, narrow or wide.  And
a text without lone surrogates is the text of the string that it shows as; one that has some shows
them as replacement characters.
-/

namespace ObjectModel

theorem valid_toNat (c : Char) : c.toNat < 0xD800 ∨ 0xE000 ≤ c.toNat ∧ c.toNat < 0x110000 := by
  have valid := c.valid
  simp only [UInt32.isValidChar, Nat.isValidChar] at valid
  have number : c.val.toNat = c.toNat := rfl
  omega

namespace Utf16

theorem single_ofNat {c : Char} (small : c.toNat < 0x10000) :
    single (UInt16.ofNat c.toNat) = .char c := by
  have unit : (UInt16.ofNat c.toNat).toNat = c.toNat := by
    rw [UInt16.toNat_ofNat']
    exact Nat.mod_eq_of_lt small
  have notHigh : isHighSurrogate (UInt16.ofNat c.toNat) = false := by
    have valid := valid_toNat c
    simp only [isHighSurrogate, unit, Bool.and_eq_false_iff, decide_eq_false_iff_not]
    omega
  have notLow : isLowSurrogate (UInt16.ofNat c.toNat) = false := by
    have valid := valid_toNat c
    simp only [isLowSurrogate, unit, Bool.and_eq_false_iff, decide_eq_false_iff_not]
    omega
  simp only [single, notHigh, notLow, unit, Bool.or_self, Bool.false_eq_true, if_false,
    Char.ofNat_toNat]

theorem isHighSurrogate_ofNat {c : Char} (small : c.toNat < 0x10000) :
    isHighSurrogate (UInt16.ofNat c.toNat) = false := by
  have valid := valid_toNat c
  simp only [isHighSurrogate, UInt16.toNat_ofNat', Bool.and_eq_false_iff,
    decide_eq_false_iff_not]
  omega

/-- What comes after the encoding of a character does not take part in its decoding. -/
theorem decode_encodeChar_append (c : Char) (rest : List UInt16) :
    decode (encodeChar c ++ rest) = .char c :: decode rest := by
  unfold encodeChar
  split
  next small =>
    cases rest with
    | nil => simp only [List.append_nil, decode, single_ofNat small]
    | cons next rest =>
      rw [List.cons_append, List.nil_append, decode, isHighSurrogate_ofNat small,
        Bool.false_and, if_neg Bool.false_ne_true, single_ofNat small]
  next large =>
    have valid := valid_toNat c
    have high : (UInt16.ofNat (0xD800 + (c.toNat - 0x10000) / 0x400)).toNat =
        0xD800 + (c.toNat - 0x10000) / 0x400 := by
      rw [UInt16.toNat_ofNat']
      omega
    have low : (UInt16.ofNat (0xDC00 + (c.toNat - 0x10000) % 0x400)).toNat =
        0xDC00 + (c.toNat - 0x10000) % 0x400 := by
      rw [UInt16.toNat_ofNat']
      omega
    have isPair : (isHighSurrogate (UInt16.ofNat (0xD800 + (c.toNat - 0x10000) / 0x400)) &&
        isLowSurrogate (UInt16.ofNat (0xDC00 + (c.toNat - 0x10000) % 0x400))) = true := by
      simp only [isHighSurrogate, isLowSurrogate, high, low, Bool.and_eq_true, decide_eq_true_iff]
      omega
    have joined : pair (UInt16.ofNat (0xD800 + (c.toNat - 0x10000) / 0x400))
        (UInt16.ofNat (0xDC00 + (c.toNat - 0x10000) % 0x400)) = c := by
      simp only [pair, high, low]
      have number : 0x10000 + (0xD800 + (c.toNat - 0x10000) / 0x400 - 0xD800) * 0x400 +
          (0xDC00 + (c.toNat - 0x10000) % 0x400 - 0xDC00) = c.toNat := by omega
      rw [number, Char.ofNat_toNat]
    rw [List.cons_append, List.cons_append, List.nil_append, decode, if_pos isPair, joined]

theorem decode_encode (chars : List Char) : decode (encode chars) = chars.map .char := by
  induction chars with
  | nil => rfl
  | cons c rest inductionHypothesis =>
    have split : encode (c :: rest) = encodeChar c ++ encode rest := List.flatMap_cons
    rw [split, decode_encodeChar_append, inductionHypothesis, List.map_cons]

theorem encodeChar_of_single {unit : UInt16} {c : Char} (whole : single unit = .char c) :
    encodeChar c = [unit] := by
  unfold single at whole
  split at whole
  next => cases whole
  next noHalf =>
    cases whole
    have valid : unit.toNat.isValidChar := by
      simp only [isHighSurrogate, isLowSurrogate, Bool.or_eq_true, Bool.and_eq_true,
        decide_eq_true_iff] at noHalf
      have small := unit.toNat_lt
      unfold Nat.isValidChar
      omega
    have number : (Char.ofNat unit.toNat).toNat = unit.toNat := by
      rw [Char.ofNat, dif_pos valid]
      rfl
    rw [encodeChar, number, if_pos unit.toNat_lt, UInt16.ofNat_toNat]

theorem encodeChar_pair {high low : UInt16} (isHigh : isHighSurrogate high = true)
    (isLow : isLowSurrogate low = true) : encodeChar (pair high low) = [high, low] := by
  simp only [isHighSurrogate, isLowSurrogate, Bool.and_eq_true, decide_eq_true_iff] at isHigh isLow
  have number : (pair high low).toNat =
      0x10000 + (high.toNat - 0xD800) * 0x400 + (low.toNat - 0xDC00) := by
    have valid : (0x10000 + (high.toNat - 0xD800) * 0x400 + (low.toNat - 0xDC00)).isValidChar := by
      unfold Nat.isValidChar
      omega
    rw [pair, Char.ofNat, dif_pos valid]
    rfl
  have first : UInt16.ofNat (0xD800 + ((pair high low).toNat - 0x10000) / 0x400) = high := by
    apply UInt16.toNat.inj
    rw [number, UInt16.toNat_ofNat']
    omega
  have second : UInt16.ofNat (0xDC00 + ((pair high low).toNat - 0x10000) % 0x400) = low := by
    apply UInt16.toNat.inj
    rw [number, UInt16.toNat_ofNat']
    omega
  rw [encodeChar, if_neg (by omega), first, second]

/-- Units that are all halves of pairs or characters by themselves encode these characters. -/
theorem encode_of_decode {units : List UInt16} {chars : List Char}
    (decoded : decode units = chars.map .char) : encode chars = units := by
  induction units using decode.induct generalizing chars with
  | case1 =>
    rw [List.map_eq_nil_iff.mp decoded.symm]
    rfl
  | case2 unit =>
    obtain ⟨c, rest, rfl, whole, ended⟩ := List.map_eq_cons_iff.mp decoded.symm
    rw [List.map_eq_nil_iff.mp ended]
    exact (List.append_nil _).trans (encodeChar_of_single whole.symm)
  | case3 unit next rest isPair inductionHypothesis =>
    rw [decode, if_pos isPair] at decoded
    obtain ⟨c, others, rfl, first, decodedRest⟩ := List.map_eq_cons_iff.mp decoded.symm
    have joined : c = pair unit next := CodePoint.char.inj first
    obtain ⟨isHigh, isLow⟩ := Bool.and_eq_true_iff.mp isPair
    have split : encode (c :: others) = encodeChar c ++ encode others := List.flatMap_cons
    rw [split, inductionHypothesis decodedRest.symm, joined, encodeChar_pair isHigh isLow]
    rfl
  | case4 unit next rest noPair inductionHypothesis =>
    rw [decode, if_neg noPair] at decoded
    obtain ⟨c, others, rfl, whole, decodedRest⟩ := List.map_eq_cons_iff.mp decoded.symm
    have split : encode (c :: others) = encodeChar c ++ encode others := List.flatMap_cons
    rw [split, inductionHypothesis decodedRest.symm, encodeChar_of_single whole.symm]
    rfl

end Utf16

namespace CodePoint

theorem mapM_char?_eq_some_iff {points : List CodePoint} {chars : List Char} :
    points.mapM char? = some chars ↔ points = chars.map .char := by
  induction points generalizing chars with
  | nil =>
    rw [List.mapM_nil]
    cases chars <;> simp
  | cons point rest inductionHypothesis =>
    rw [List.mapM_cons]
    cases point with
    | lone unit => cases chars <;> simp [char?]
    | char c =>
      simp only [char?, Option.bind_eq_bind, Option.bind_some, Option.pure_def,
        Option.bind_eq_some_iff, inductionHypothesis]
      constructor
      · rintro ⟨others, rfl, same⟩
        cases same
        rfl
      · intro same
        obtain ⟨first, others, rfl, sameFirst, sameRest⟩ := List.map_eq_cons_iff.mp same.symm
        cases sameFirst
        exact ⟨others, sameRest.symm, rfl⟩

theorem exists_lone_of_mapM_char? {points : List CodePoint} (broken : points.mapM char? = none) :
    ∃ unit, .lone unit ∈ points := by
  induction points with
  | nil => cases broken
  | cons point rest inductionHypothesis =>
    cases point with
    | lone unit => exact ⟨unit, List.mem_cons_self⟩
    | char c =>
      have brokenRest : rest.mapM char? = none := by
        rw [List.mapM_cons] at broken
        cases decoded : rest.mapM char? with
        | none => rfl
        | some chars =>
          rw [decoded] at broken
          cases broken
      obtain ⟨unit, member⟩ := inductionHypothesis brokenRest
      exact ⟨unit, List.mem_cons_of_mem _ member⟩

end CodePoint

namespace Encoding

theorem chars_ofChars (chars : List Char) : (ofChars chars).chars = chars := by
  unfold ofChars
  split
  next ascii =>
    have below : ∀ c ∈ chars, c.toNat < 0x80 := by simpa using ascii
    simp only [Encoding.chars, List.map_map]
    refine (List.map_congr_left fun c member => ?_).trans (List.map_id chars)
    have small := below c member
    simp only [Function.comp_apply, UInt8.toNat_ofNat', id]
    rw [Nat.mod_eq_of_lt (by omega), Char.ofNat_toNat]
  next =>
    simp only [Encoding.chars, Utf16.decode_encode, List.map_map]
    exact List.map_id chars

variable {left right text : Encoding}

theorem toUInt16_injective : Function.Injective UInt8.toUInt16 := by
  intro a b same
  apply UInt8.toNat.inj
  rw [← UInt8.toNat_toUInt16 a, same, UInt8.toNat_toUInt16]

/-- The units of a canonical encoding determine its storage. -/
theorem Canonical.eq_of_units (canonicalLeft : left.Canonical) (canonicalRight : right.Canonical)
    (same : left.units = right.units) : left = right := by
  have sameStorage : left.isNarrow = right.isNarrow := by
    unfold Canonical at canonicalLeft canonicalRight
    rw [Bool.eq_iff_iff, canonicalLeft, canonicalRight, same]
  cases left with
  | narrow leftBytes =>
    cases right with
    | narrow rightBytes =>
      exact congrArg narrow (List.map_inj_right toUInt16_injective |>.mp same)
    | wide rightUnits => cases sameStorage
  | wide leftUnits =>
    cases right with
    | narrow rightBytes => cases sameStorage
    | wide rightUnits => exact congrArg wide same

theorem units_ofChars (chars : List Char) : (ofChars chars).units = Utf16.encode chars := by
  unfold ofChars
  split
  next ascii =>
    have below : ∀ c ∈ chars, c.toNat < 0x80 := by simpa using ascii
    rw [units_narrow, List.map_map, List.map_eq_flatMap, Utf16.encode]
    simp only [List.flatMap_def]
    refine congrArg List.flatten (List.map_congr_left fun c member => ?_)
    have small := below c member
    have unit : (UInt8.ofNat c.toNat).toUInt16 = UInt16.ofNat c.toNat := by
      apply UInt16.toNat.inj
      rw [UInt8.toNat_toUInt16, UInt8.toNat_ofNat', UInt16.toNat_ofNat']
      omega
    rw [Utf16.encodeChar, if_pos (by omega), Function.comp_apply, unit]
  next => rfl

theorem codePoints_ofChars (chars : List Char) :
    (ofChars chars).codePoints = chars.map .char := by
  rw [codePoints, units_ofChars, Utf16.decode_encode]

theorem ofChars_chars_narrow {bytes : List UInt8} (canonical : (narrow bytes).Canonical) :
    ofChars (narrow bytes).chars = narrow bytes := by
  have below := canonical_narrow_iff.mp canonical
  have number {byte : UInt8} (member : byte ∈ bytes) :
      (Char.ofNat byte.toNat).toNat = byte.toNat ∧ byte.toNat < 0x80 := by
    have small : byte.toNat < 0x80 := UInt8.lt_iff_toNat_lt.mp (below byte member)
    refine ⟨?_, small⟩
    rw [Char.ofNat, dif_pos (.inl (by omega))]
    rfl
  have ascii : (narrow bytes).chars.all (·.toNat < 0x80) = true := by
    simp only [Encoding.chars, List.all_map, List.all_eq_true, Function.comp_apply,
      decide_eq_true_iff]
    intro byte member
    rw [(number member).1]
    exact (number member).2
  rw [ofChars, if_pos ascii, Encoding.chars, List.map_map]
  refine congrArg narrow ((List.map_congr_left fun byte member => ?_).trans (List.map_id bytes))
  rw [Function.comp_apply, (number member).1, UInt8.ofNat_toNat]
  rfl

end Encoding

namespace Text

@[simp]
theorem toString_ofString (string : String) : (ofString string).toString = string := by
  have chars : (ofString string).encoding.chars = string.toList :=
    Encoding.chars_ofChars string.toList
  simp only [Text.toString, Encoding.toString, chars, String.ofList_toList]

/-- A text without lone surrogates is the text of a string. -/
theorem toString?_eq_some_iff {text : Text} {string : String} :
    text.toString? = some string ↔ text = ofString string := by
  have decoded : text.toString? = some string ↔
      text.encoding.codePoints = string.toList.map .char := by
    rw [← CodePoint.mapM_char?_eq_some_iff]
    constructor
    · intro whole
      obtain ⟨chars, read, rfl⟩ := Option.map_eq_some_iff.mp whole
      rw [String.toList_ofList, read]
    · intro read
      simp only [Text.toString?, Encoding.toString?, read, Option.map_some, String.ofList_toList]
  rw [decoded]
  constructor
  · intro points
    have units : text.encoding.units = (Encoding.ofChars string.toList).units := by
      rw [Encoding.units_ofChars, Utf16.encode_of_decode points]
    have same := text.canonical.eq_of_units (Encoding.canonical_ofChars _) units
    cases text
    cases same
    rfl
  · rintro rfl
    exact Encoding.codePoints_ofChars string.toList

theorem exists_ofString_of_bytes? {text : Text} {bytes : List UInt8}
    (narrow : text.bytes? = some bytes) : ∃ string, text = ofString string := by
  obtain ⟨encoding, canonical⟩ := text
  cases encoding with
  | wide units => cases narrow
  | narrow held =>
    refine ⟨String.ofList (Encoding.narrow held).chars, ?_⟩
    have same := Encoding.ofChars_chars_narrow canonical
    simp only [ofString, ofChars, String.toList_ofList, same]

theorem mem_toString_of_toString?_eq_none {text : Text} (broken : text.toString? = none) :
    '\uFFFD' ∈ text.toString.toList := by
  obtain ⟨unit, member⟩ := CodePoint.exists_lone_of_mapM_char? (Option.map_eq_none_iff.mp broken)
  rw [toString, Encoding.toString, String.toList_ofList]
  cases storage : text.encoding with
  | wide units =>
    rw [storage] at member
    exact List.mem_map.mpr ⟨_, member, rfl⟩
  | narrow bytes =>
    have narrow : text.bytes? = some bytes := by rw [bytes?, storage, Encoding.bytes?]
    obtain ⟨string, rfl⟩ := exists_ofString_of_bytes? narrow
    rw [toString?_eq_some_iff.mpr rfl] at broken
    cases broken

theorem bytes?_ofString {string : String} {bytes : List UInt8}
    (narrow : (ofString string).bytes? = some bytes) :
    string.toList = bytes.map fun byte => Char.ofNat byte.toNat := by
  have chars : (ofString string).encoding.chars = string.toList :=
    Encoding.chars_ofChars string.toList
  rw [← chars]
  unfold bytes? Encoding.bytes? at narrow
  split at narrow
  next held stored =>
    cases narrow
    rw [stored]
    rfl
  next => cases narrow

end Text

end ObjectModel
