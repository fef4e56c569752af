import ObjectModel.Host.KeyType
import ObjectModel.Proofs.Text.Roundtrip

/-!
# Numerals as keys

The text of an array index is the decimal numeral of that index and no other, and the numeral of a
64-bit integer is read back as that integer.
-/

namespace ObjectModel

def IsDigit (byte : UInt8) : Prop := 0x30 ≤ byte.toNat ∧ byte.toNat ≤ 0x39

theorem digitChar_byte {byte : UInt8} (digit : IsDigit byte) :
    Nat.digitChar (byte.toNat - 0x30) = Char.ofNat byte.toNat := by
  obtain ⟨_, below⟩ := digit
  apply Char.toNat_inj.mp
  have number : (Char.ofNat byte.toNat).toNat = byte.toNat := by
    rw [Char.ofNat, dif_pos (.inl (by omega))]
    rfl
  rw [Nat.toNat_digitChar_of_lt_ten (by omega), number]
  omega

theorem toDigits_append_bytes {value : Nat} (positive : 0 < value) {bytes : List UInt8}
    (digits : ∀ byte ∈ bytes, IsDigit byte) :
    Nat.toDigits 10 value ++ bytes.map (fun byte => Char.ofNat byte.toNat) =
      Nat.toDigits 10
        (bytes.foldl (fun value byte => value * 10 + (byte.toNat - 0x30)) value) := by
  induction bytes generalizing value with
  | nil => simp
  | cons byte rest inductionHypothesis =>
    have digit := digits byte List.mem_cons_self
    have digitsRest : ∀ byte ∈ rest, IsDigit byte :=
      fun other member => digits other (List.mem_cons_of_mem _ member)
    have longer : Nat.toDigits 10 value ++ [Char.ofNat byte.toNat] =
        Nat.toDigits 10 (value * 10 + (byte.toNat - 0x30)) := by
      have below : byte.toNat - 0x30 < 10 := by
        obtain ⟨_, below⟩ := digit
        omega
      rw [← digitChar_byte digit, ← Nat.toDigits_of_lt_base below,
        Nat.toDigits_append_toDigits (by decide) positive below, Nat.mul_comm]
    rw [List.map_cons, List.foldl_cons, ← inductionHypothesis (by omega) digitsRest, ← longer,
      List.append_assoc, List.singleton_append]

/-- Digits of which the first is not zero are the numeral of the number that they write. -/
theorem map_bytes_eq_toDigits {bytes : List UInt8} (digits : ∀ byte ∈ bytes, IsDigit byte)
    (nonempty : bytes ≠ []) (first : ∀ rest, bytes ≠ 0x30 :: rest) :
    bytes.map (fun byte => Char.ofNat byte.toNat) =
      Nat.toDigits 10 (bytes.foldl (fun value byte => value * 10 + (byte.toNat - 0x30)) 0) := by
  cases bytes with
  | nil => exact absurd rfl nonempty
  | cons byte rest =>
    have digit := digits byte List.mem_cons_self
    have digitsRest : ∀ byte ∈ rest, IsDigit byte :=
      fun other member => digits other (List.mem_cons_of_mem _ member)
    have notZero : byte.toNat ≠ 0x30 := by
      intro zero
      have same : byte = 0x30 := UInt8.toNat.inj zero
      exact first rest (same ▸ rfl)
    obtain ⟨above, below⟩ := digit
    rw [List.map_cons, List.foldl_cons, Nat.zero_mul, Nat.zero_add,
      ← toDigits_append_bytes (by omega) digitsRest, Nat.toDigits_of_lt_base (by omega),
      digitChar_byte ⟨above, below⟩, List.singleton_append]

theorem toDigits_of_parseArrayIndex {bytes : List UInt8} {i : UInt32}
    (parsed : parseArrayIndex bytes = some i) :
    bytes.map (fun byte => Char.ofNat byte.toNat) = Nat.toDigits 10 i.toNat := by
  unfold parseArrayIndex at parsed
  split at parsed
  next => cases parsed
  next =>
    cases parsed
    rfl
  next => cases parsed
  next nonempty notZero notPadded =>
    split at parsed
    next => cases parsed
    next =>
      split at parsed
      next allDigits =>
        simp only at parsed
        split at parsed
        next bounded =>
          cases parsed
          have digits : ∀ byte ∈ bytes, IsDigit byte := by
            simpa [UInt8.le_iff_toNat_le, IsDigit] using allDigits
          have first : ∀ rest, bytes ≠ 0x30 :: rest := by
            rintro (_ | ⟨next, rest⟩)
            · exact notZero
            · exact notPadded next rest
          rw [map_bytes_eq_toDigits digits nonempty first, UInt32.toNat_ofNat',
            Nat.mod_eq_of_lt (Nat.lt_of_le_of_lt bounded (by decide))]
        next => cases parsed
      next => cases parsed

theorem Key.eq_toString_of_ofString {string : String} {i : UInt32}
    (index : Key.ofString string = .index i) : string = toString i.toNat := by
  unfold Key.ofString Key.ofText at index
  split at index
  next j parsed =>
    cases index
    obtain ⟨bytes, narrow, parsed⟩ := Option.bind_eq_some_iff.mp parsed
    rw [Nat.toString_eq_ofList_toDigits, ← toDigits_of_parseArrayIndex parsed,
      ← Text.bytes?_ofString narrow, String.ofList_toList]
  next => cases index

@[simp]
theorem Key.display_ofString (string : String) : (Key.ofString string).display = string := by
  cases key : Key.ofString string with
  | index i =>
    have text : (Key.index i).toText = .ofString (toString i.toNat) := rfl
    rw [Key.eq_toString_of_ofString key, Key.display, text, Text.toString_ofString]
  | named text =>
    unfold Key.ofString Key.ofText at key
    split at key
    next => cases key
    next =>
      cases key
      exact Text.toString_ofString string

theorem natOfDigits_toDigits (n : Nat) : natOfDigits (Nat.toDigits 10 n) = n := by
  have read := Nat.ofDigitChars_ten_toDigits (n := n)
  rw [Nat.ofDigitChars_eq_foldl] at read
  unfold natOfDigits
  simpa only [Nat.mul_comm] using read

theorem all_isDecimalDigit_toDigits (n : Nat) : (Nat.toDigits 10 n).all isDecimalDigit = true := by
  rw [List.all_eq_true]
  intro c member
  have digit := Nat.isDigit_of_mem_toDigits (by decide) (by decide) member
  simpa [isDecimalDigit, Char.isDigit, Char.le_def] using digit

theorem splitSign_of_digits {chars : List Char} (digits : chars.all isDecimalDigit = true) :
    splitSign chars = (false, chars) := by
  unfold splitSign
  split
  next => cases digits
  next => cases digits
  next => rfl

theorem splitSign_toString (n : Int) :
    splitSign (toString n).toList = (decide (n < 0), Nat.toDigits 10 n.natAbs) := by
  rw [Int.toString_eq_repr, Int.repr_eq_if]
  split
  next positive =>
    have magnitude : n.toNat = n.natAbs := by omega
    have sign : decide (n < 0) = false := decide_eq_false (by omega)
    rw [Nat.repr_eq_ofList_toDigits, String.toList_ofList, sign, magnitude,
      splitSign_of_digits (all_isDecimalDigit_toDigits _)]
  next negative =>
    have magnitude : (-n).toNat = n.natAbs := by omega
    have sign : decide (n < 0) = true := decide_eq_true (by omega)
    rw [String.toList_append, magnitude, Nat.repr_eq_ofList_toDigits, sign]
    simp only [String.toList_ofList]
    rfl

/-- A 64-bit integer is read back from its numeral. -/
theorem int64OfNumeral?_toString (n : Int64) : int64OfNumeral? (toString n.toInt) = some n := by
  have signed : (if decide (n.toInt < 0) = true then -Int.ofNat n.toInt.natAbs
      else Int.ofNat n.toInt.natAbs) = n.toInt := by
    split
    next negative =>
      have below : n.toInt < 0 := of_decide_eq_true negative
      change -(n.toInt.natAbs : Int) = n.toInt
      omega
    next positive =>
      have above : ¬n.toInt < 0 := fun below => positive (decide_eq_true below)
      change (n.toInt.natAbs : Int) = n.toInt
      omega
  have low := n.le_toInt
  have high := n.toInt_lt
  unfold int64OfNumeral?
  simp only [splitSign_toString, natOfDigits_toDigits, signed, all_isDecimalDigit_toDigits]
  rw [if_pos, Int64.ofInt_toInt]
  simp [Nat.toDigits_ne_nil]
  omega

end ObjectModel
