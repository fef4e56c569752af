import ObjectModel.Proofs.Key.Canonical
import ObjectModel.Proofs.Text.Units

/-!
# Keys stand for texts

Building a key from a text and reading the text of a key undo each other.  So the keys that are
built correspond to texts, and to sequences of units.  The indices among them are those whose text
is a decimal numeral without leading zeros, up to the largest array index.
-/

namespace ObjectModel

/-- Whether bytes write a number in decimal, without leading zeros. -/
structure Writes (bytes : List UInt8) (n : Nat) : Prop where
  nonempty : bytes ≠ []
  digits : ∀ byte ∈ bytes, IsDigit byte
  unpadded : ∀ rest, bytes = 0x30 :: rest → rest = []
  value : bytes.foldl (fun value byte => value * 10 + (byte.toNat - 0x30)) 0 = n

variable {bytes : List UInt8} {n : Nat} {i : UInt32}

theorem eq_numeralBytes
    (numeral : bytes.map (fun byte => Char.ofNat byte.toNat) = Nat.toDigits 10 n) :
    bytes = numeralBytes n := by
  have number (byte : UInt8) : UInt8.ofNat (Char.ofNat byte.toNat).toNat = byte := by
    have bound := byte.toNat_lt
    rw [Char.ofNat, dif_pos (.inl (by omega))]
    exact UInt8.ofNat_toNat
  rw [numeralBytes, ← numeral, List.map_map]
  exact ((List.map_congr_left fun byte _ => number byte).trans (List.map_id bytes)).symm

theorem writes_numeralBytes (n : Nat) : Writes (numeralBytes n) n where
  nonempty empty := Nat.toDigits_ne_nil (List.map_eq_nil_iff.mp empty)
  digits _ member := isDigit_of_mem_numeralBytes member
  unpadded rest padded := by
    rcases Nat.eq_zero_or_pos n with rfl | positive
    · exact (List.cons.inj padded).2.symm
    · obtain ⟨c, others, digits, nonzero⟩ := exists_cons_toDigits positive
      have number := toNat_numeralByte (digits ▸ List.mem_cons_self : c ∈ Nat.toDigits 10 n)
      rw [numeralBytes, digits, List.map_cons] at padded
      rw [(List.cons.inj padded).1] at number
      exact absurd (Char.toNat_inj.mp number.symm) nonzero
  value := foldl_numeralBytes n

theorem writes_iff : Writes bytes n ↔ bytes = numeralBytes n := by
  constructor
  · intro writes
    by_cases padded : ∃ rest, bytes = 0x30 :: rest
    · obtain ⟨rest, same⟩ := padded
      rw [writes.unpadded rest same] at same
      rw [← writes.value, same]
      rfl
    · apply eq_numeralBytes
      rw [map_bytes_eq_toDigits writes.digits writes.nonempty fun rest same => padded ⟨rest, same⟩,
        writes.value]
  · rintro rfl
    exact writes_numeralBytes n

/-- Exactly the bytes that write an array index are parsed, whatever their number. -/
theorem parseArrayIndex_eq_some_iff :
    parseArrayIndex bytes = some i ↔ Writes bytes i.toNat ∧ i.toNat ≤ maxArrayIndex := by
  rw [writes_iff]
  constructor
  · intro parsed
    exact ⟨eq_numeralBytes (toDigits_of_parseArrayIndex parsed),
      le_maxArrayIndex_of_parseArrayIndex parsed⟩
  · rintro ⟨rfl, bounded⟩
    rw [parseArrayIndex_numeralBytes bounded, UInt32.ofNat_toNat]

namespace Text

theorem bytes?_eq_some_iff {text other : Text} (narrow : other.bytes? = some bytes) :
    text.bytes? = some bytes ↔ text = other := by
  constructor
  · intro same
    have stored {text : Text} (narrow : text.bytes? = some bytes) :
        text.encoding = .narrow bytes := by
      obtain ⟨encoding, canonical⟩ := text
      cases encoding <;> cases narrow
      rfl
    have equal := (stored same).trans (stored narrow).symm
    cases text
    cases other
    cases equal
    rfl
  · rintro rfl
    exact narrow

theorem eq_iff_units {left right : Text} : left = right ↔ left.units = right.units := by
  refine ⟨congrArg units, fun same => ?_⟩
  have equal := left.canonical.eq_of_units right.canonical same
  cases left
  cases right
  cases equal
  rfl

end Text

namespace Key

variable {first second : Key}

theorem toText_ofText (text : Text) : (ofText text).toText = text := by
  cases built : ofText text with
  | index i => exact (ofText_eq_index_iff.mp built).1.symm
  | named other => exact eq_of_ofText_eq_named built

theorem toText_index_ne {string : String} {c : Char} (member : c ∈ string.toList)
    (noDigit : c.isDigit = false) (i : UInt32) : (index i).toText ≠ .ofString string := by
  intro same
  have spelled : toString i.toNat = string := by
    rw [← Text.toString_ofString (toString i.toNat), ← Text.toString_ofString string]
    exact congrArg Text.toString same
  rw [← spelled, Nat.toString_eq_ofList_toDigits, String.toList_ofList] at member
  rw [Nat.isDigit_of_mem_toDigits (by decide) (by decide) member] at noDigit
  cases noDigit

theorem isLength_iff (key : Key) : key.isLength = true ↔ key.toText = .ofString "length" := by
  cases key with
  | index i =>
    refine iff_of_false Bool.false_ne_true (toText_index_ne (c := 'l') ?_ rfl i)
    decide
  | named text => exact beq_iff_eq.trans (Text.bytes?_eq_some_iff rfl)

theorem isProto_iff (key : Key) : key.isProto = true ↔ key.toText = .ofString "__proto__" := by
  cases key with
  | index i =>
    refine iff_of_false Bool.false_ne_true (toText_index_ne (c := '_') ?_ rfl i)
    decide
  | named text => exact beq_iff_eq.trans (Text.bytes?_eq_some_iff rfl)

/-- The keys that are built are texts in another form: each is built from its text, and each text is
the text of the key that is built from it.  A text is that of an index if it is the numeral of one,
and bytes are parsed as an index exactly if they write one. -/
theorem built_keys_are_texts (builtFirst : first.Built) (builtSecond : second.Built) :
    (∀ text, (ofText text).Built ∧ (ofText text).toText = text) ∧ ofText first.toText = first ∧
      (first = second ↔ first.toText.units = second.toText.units) ∧
      (∀ text i, ofText text = .index i ↔
        text = .ofString (toString i.toNat) ∧ i.toNat ≤ maxArrayIndex) ∧
      (∀ bytes i, parseArrayIndex bytes = some i ↔
        Writes bytes i.toNat ∧ i.toNat ≤ maxArrayIndex) ∧
      (∀ key : Key, key.isLength = true ↔ key.toText = .ofString "length") ∧
      ∀ key : Key, key.isProto = true ↔ key.toText = .ofString "__proto__" := by
  refine ⟨fun text => ⟨.ofText text, toText_ofText text⟩, builtFirst.ofText_toText, ?_,
    fun _ _ => ofText_eq_index_iff, fun _ _ => parseArrayIndex_eq_some_iff, isLength_iff,
    isProto_iff⟩
  rw [← Text.eq_iff_units]
  exact ⟨congrArg toText, builtFirst.toText_inj builtSecond⟩

/-- The number after the largest array index is no index, but still has one key. -/
theorem built_keys_are_texts_beyond :
    ofIndex 0xFFFFFFFF = ofString "4294967295" ∧ ofIndex 0xFFFFFFFF ≠ ofIndex 0xFFFFFFFE ∧
      ofText (ofIndex 0xFFFFFFFF).toText = ofIndex 0xFFFFFFFF := by
  obtain ⟨_, round, same, _⟩ :=
    built_keys_are_texts (.ofIndex 0xFFFFFFFF) (.ofString "4294967295")
  obtain ⟨_, _, apart, _⟩ := built_keys_are_texts (.ofIndex 0xFFFFFFFF) (.ofIndex 0xFFFFFFFE)
  exact ⟨same.mpr (by decide), fun equal => absurd (apart.mp equal) (by decide), round⟩

end Key

end ObjectModel
