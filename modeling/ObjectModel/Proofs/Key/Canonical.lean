import ObjectModel.Proofs.Key.Numeral

/-!
# Keys and their texts

The numeral of an array index is taken for that index.  So a key is determined by its text, however
it was built.
-/

namespace ObjectModel

theorem exists_cons_toDigits {n : Nat} (positive : 0 < n) :
    ∃ c rest, Nat.toDigits 10 n = c :: rest ∧ c ≠ '0' := by
  induction n using Nat.strongRecOn with
  | ind n inductionHypothesis =>
    rcases Nat.lt_or_ge n 10 with small | large
    · refine ⟨n.digitChar, [], Nat.toDigits_of_lt_base small, fun zero => ?_⟩
      have number := Nat.toNat_digitChar_of_lt_ten small
      rw [zero] at number
      have zeroNumber : '0'.toNat = 48 := rfl
      omega
    · have shorter : n / 10 < n := Nat.div_lt_self positive (by decide)
      obtain ⟨c, rest, digits, nonzero⟩ := inductionHypothesis (n / 10) shorter (by omega)
      refine ⟨c, rest ++ [(n % 10).digitChar], ?_, nonzero⟩
      rw [Nat.toDigits_of_base_le (by decide) large, digits, List.cons_append]

theorem toNat_of_mem_toDigits {n : Nat} {c : Char} (member : c ∈ Nat.toDigits 10 n) :
    0x30 ≤ c.toNat ∧ c.toNat ≤ 0x39 := by
  have digit := Nat.isDigit_of_mem_toDigits (by decide) (by decide) member
  simpa [Char.isDigit, UInt32.le_iff_toNat_le] using digit

def numeralBytes (n : Nat) : List UInt8 := (Nat.toDigits 10 n).map fun c => UInt8.ofNat c.toNat

theorem toNat_numeralByte {n : Nat} {c : Char} (member : c ∈ Nat.toDigits 10 n) :
    (UInt8.ofNat c.toNat).toNat = c.toNat := by
  have digit := toNat_of_mem_toDigits member
  rw [UInt8.toNat_ofNat']
  omega

theorem isDigit_of_mem_numeralBytes {n : Nat} {byte : UInt8} (member : byte ∈ numeralBytes n) :
    IsDigit byte := by
  obtain ⟨c, inDigits, rfl⟩ := List.mem_map.mp member
  unfold IsDigit
  rw [toNat_numeralByte inDigits]
  exact toNat_of_mem_toDigits inDigits

theorem foldl_numeralBytes (n : Nat) :
    (numeralBytes n).foldl (fun value byte => value * 10 + (byte.toNat - 0x30)) 0 = n := by
  have same (value : Nat) (digits : List Char) (all : ∀ c ∈ digits, c ∈ Nat.toDigits 10 n) :
      (digits.map fun c => UInt8.ofNat c.toNat).foldl
          (fun value byte => value * 10 + (byte.toNat - 0x30)) value =
        digits.foldl (fun value c => value * 10 + (c.toNat - '0'.toNat)) value := by
    induction digits generalizing value with
    | nil => rfl
    | cons c rest inductionHypothesis =>
      rw [List.map_cons, List.foldl_cons, List.foldl_cons,
        toNat_numeralByte (all c List.mem_cons_self)]
      exact inductionHypothesis _ fun other member => all other (List.mem_cons_of_mem _ member)
  exact (same 0 _ fun _ member => member).trans (natOfDigits_toDigits n)

theorem parseArrayIndex_numeralBytes {n : Nat} (bounded : n ≤ maxArrayIndex) :
    parseArrayIndex (numeralBytes n) = some (UInt32.ofNat n) := by
  rcases Nat.eq_zero_or_pos n with rfl | positive
  · rfl
  obtain ⟨c, rest, digits, nonzero⟩ := exists_cons_toDigits positive
  have first : UInt8.ofNat c.toNat ≠ 0x30 := by
    intro zero
    have number := toNat_numeralByte (n := n) (digits ▸ List.mem_cons_self)
    rw [zero] at number
    exact nonzero (Char.toNat_inj.mp number.symm)
  have short : (numeralBytes n).length ≤ 10 := by
    rw [numeralBytes, List.length_map]
    have few : n < 10 ^ 10 := by
      unfold maxArrayIndex at bounded
      omega
    exact (Nat.length_toDigits_le_iff (by decide) (by decide)).mpr few
  have allDigits : (numeralBytes n).all (fun byte => 0x30 ≤ byte && byte ≤ 0x39) = true := by
    rw [List.all_eq_true]
    intro byte member
    simpa [UInt8.le_iff_toNat_le, IsDigit] using isDigit_of_mem_numeralBytes member
  have split : numeralBytes n = UInt8.ofNat c.toNat :: rest.map fun c => UInt8.ofNat c.toNat := by
    rw [numeralBytes, digits, List.map_cons]
  unfold parseArrayIndex
  split
  next empty => cases empty.symm.trans split
  next zero =>
    rw [split] at zero
    exact absurd (List.cons.inj zero).1 first
  next padded =>
    rw [split] at padded
    exact absurd (List.cons.inj padded).1 first
  next =>
    rw [if_neg (Nat.not_lt.mpr short), if_pos allDigits]
    simp only [foldl_numeralBytes, if_pos bounded]

theorem le_maxArrayIndex_of_parseArrayIndex {bytes : List UInt8} {i : UInt32}
    (parsed : parseArrayIndex bytes = some i) : i.toNat ≤ maxArrayIndex := by
  unfold parseArrayIndex at parsed
  split at parsed
  next => cases parsed
  next =>
    cases parsed
    decide
  next => cases parsed
  next =>
    split at parsed
    next => cases parsed
    next =>
      split at parsed
      next =>
        simp only at parsed
        split at parsed
        next bounded =>
          cases parsed
          rw [UInt32.toNat_ofNat']
          exact Nat.le_trans (Nat.mod_le _ _) bounded
        next => cases parsed
      next => cases parsed

theorem bytes?_numeral (n : Nat) : (Text.ofString (toString n)).bytes? = some (numeralBytes n) := by
  have ascii : (toString n).toList.all (·.toNat < 0x80) = true := by
    rw [Nat.toString_eq_ofList_toDigits, String.toList_ofList, List.all_eq_true]
    intro c member
    have digit := toNat_of_mem_toDigits member
    exact decide_eq_true (by omega)
  simp only [Text.bytes?, Text.ofString, Text.ofChars, Encoding.ofChars, if_pos ascii,
    Encoding.bytes?]
  rw [Nat.toString_eq_ofList_toDigits, String.toList_ofList]
  rfl

theorem not_mem_toString_int (n : Int) {c : Char} (noSign : c ≠ '-') (noDigit : c.isDigit = false) :
    c ∉ (toString n).toList := by
  have digits (magnitude : Nat) : c ∉ Nat.toDigits 10 magnitude := by
    intro member
    rw [Nat.isDigit_of_mem_toDigits (by decide) (by decide) member] at noDigit
    cases noDigit
  rw [Int.toString_eq_repr, Int.repr_eq_if]
  split
  next =>
    rw [Nat.repr_eq_ofList_toDigits, String.toList_ofList]
    exact digits _
  next =>
    simp only [String.toList_append, Nat.repr_eq_ofList_toDigits, String.toList_ofList,
      List.mem_append]
    rintro (sign | digit)
    · exact noSign (List.mem_singleton.mp sign)
    · exact digits _ digit

/-- A string that is read as a 64-bit integer is its numeral. -/
theorem eq_toString_of_int64OfNumeral? {string : String} {n : Int64}
    (read : int64OfNumeral? string = some n) : string = toString n.toInt := by
  obtain ⟨checked, same⟩ := Option.ite_none_right_eq_some.mp read
  simp only [Bool.and_eq_true, decide_eq_true_iff, beq_iff_eq] at checked
  obtain ⟨⟨⟨_, low⟩, high⟩, written⟩ := checked
  rw [← Option.some.inj same, Int64.toInt_ofInt_of_le low high, written]

theorem toString_nat_inj {a b : Nat} (same : toString a = toString b) : a = b := by
  have digits := congrArg String.toList same
  rw [Nat.toString_eq_ofList_toDigits, Nat.toString_eq_ofList_toDigits, String.toList_ofList,
    String.toList_ofList] at digits
  rw [← natOfDigits_toDigits a, digits, natOfDigits_toDigits]

namespace Key

variable {key first second : Key} {text : Text} {i : UInt32}

/-- A text is an array index if it is the numeral of one. -/
theorem ofText_eq_index_iff :
    ofText text = .index i ↔ text = .ofString (toString i.toNat) ∧ i.toNat ≤ maxArrayIndex := by
  constructor
  · intro built
    have parsed : text.bytes?.bind parseArrayIndex = some i := by
      unfold ofText at built
      split at built
      next j parsed =>
        cases built
        exact parsed
      next => cases built
    obtain ⟨bytes, narrow, digits⟩ := Option.bind_eq_some_iff.mp parsed
    obtain ⟨string, rfl⟩ := Text.exists_ofString_of_bytes? narrow
    exact ⟨congrArg Text.ofString (eq_toString_of_ofString built),
      le_maxArrayIndex_of_parseArrayIndex digits⟩
  · rintro ⟨rfl, bounded⟩
    rw [ofText, bytes?_numeral, Option.bind_some, parseArrayIndex_numeralBytes bounded,
      UInt32.ofNat_toNat]

theorem eq_of_ofText_eq_named {other : Text} (built : ofText text = .named other) :
    other = text := by
  unfold ofText at built
  split at built
  next => cases built
  next =>
    cases built
    rfl

theorem ofIndex_eq_ofString (i : UInt32) : ofIndex i = ofString (toString i.toNat) := by
  unfold ofIndex
  split
  next bounded => exact (ofText_eq_index_iff.mpr ⟨rfl, bounded⟩).symm
  next beyond =>
    cases built : ofString (toString i.toNat) with
    | index j =>
      obtain ⟨numeral, bounded⟩ := ofText_eq_index_iff.mp built
      have same := toString_nat_inj (eq_toString_of_ofString built)
      exact absurd (same ▸ bounded) beyond
    | named other => rw [eq_of_ofText_eq_named built]

/-- The keys that are built from texts, from strings or from positions. -/
inductive Built : Key → Prop
  | ofText (text : Text) : Built (.ofText text)
  | ofString (string : String) : Built (.ofString string)
  | ofIndex (i : UInt32) : Built (.ofIndex i)

namespace Built

/-- All of them are built from their texts. -/
theorem ofText_toText (built : key.Built) : Key.ofText key.toText = key := by
  obtain ⟨text, rfl⟩ : ∃ text, key = Key.ofText text := by
    cases built with
    | ofText text => exact ⟨text, rfl⟩
    | ofString string => exact ⟨.ofString string, rfl⟩
    | ofIndex i => exact ⟨_, ofIndex_eq_ofString i⟩
  cases taken : Key.ofText text with
  | index i => exact ofText_eq_index_iff.mpr ⟨rfl, (ofText_eq_index_iff.mp taken).2⟩
  | named other =>
    rw [toText, eq_of_ofText_eq_named taken, taken, eq_of_ofText_eq_named taken]

theorem toText_inj (builtFirst : first.Built) (builtSecond : second.Built)
    (same : first.toText = second.toText) : first = second := by
  rw [← builtFirst.ofText_toText, same, builtSecond.ofText_toText]

end Built

end Key

end ObjectModel
