import ObjectModel.Proofs.Key.Canonical

/-!
# Host keys as property keys

Every host key is shown at a property key of its own, and that property key denotes it again.  There
is one exception: the largest 32-bit number is no array index, so it is shown as text, and texts
denote no 32-bit numbers.

Different property keys denote different host keys.  Again there is one exception: strings have no
lone surrogates, so keys that differ only there denote the same string.
-/

namespace ObjectModel.KeyType

/-- Whether a host key is shown at a property key that denotes no host key. -/
def Strays : (keyType : KeyType) → keyType.Carrier → Prop
  | .uint32, n => maxArrayIndex < UInt32.toNat n
  | .string, _ | .int64, _ => False

variable {keyType : KeyType} {hostKey : keyType.Carrier}

theorem ofKey?_toKey_of_strays (strays : keyType.Strays hostKey) :
    keyType.ofKey? (keyType.toKey hostKey) = none := by
  cases keyType with
  | string => cases strays
  | int64 => cases strays
  | uint32 =>
    have text : Key.ofIndex hostKey = .named (.ofString (toString (UInt32.toNat hostKey))) :=
      if_neg (Nat.not_le_of_lt strays)
    simp only [toKey, ofKey?, text]

theorem ofKey?_int64_toString (n : Int64) :
    KeyType.int64.ofKey? (.ofString (toString n.toInt)) = some n := by
  cases key : Key.ofString (toString n.toInt) with
  | index i =>
    have written : toString n.toInt = toString (i.toNat : Int) := Key.eq_toString_of_ofString key
    have below : (i.toNat : Int) < 2 ^ 63 := by
      have := i.toNat_lt
      omega
    have exact : (Int64.ofInt i.toNat).toInt = i.toNat :=
      Int64.toInt_ofInt_of_le (by omega) below
    have read : some (Int64.ofInt i.toNat) = some n := by
      rw [← int64OfNumeral?_toString n, written, ← exact, int64OfNumeral?_toString, exact]
    exact read
  | named text =>
    have shown : (Key.ofString (toString n.toInt)).display = text.toString := by
      rw [key]
      rfl
    rw [Key.display_ofString] at shown
    show int64OfNumeral? text.toString = some n
    rw [← shown, int64OfNumeral?_toString]

theorem ofKey?_toKey (stays : ¬keyType.Strays hostKey) :
    keyType.ofKey? (keyType.toKey hostKey) = some hostKey := by
  cases keyType with
  | string => exact congrArg some (Key.display_ofString hostKey)
  | int64 => exact ofKey?_int64_toString hostKey
  | uint32 =>
    have index : Key.ofIndex hostKey = .index hostKey := if_pos (Nat.not_lt.mp stays)
    simp only [toKey, ofKey?, index]

/-- A host key is read back from the property key that shows it, unless it strays. -/
theorem ofKey?_toKey_iff :
    keyType.ofKey? (keyType.toKey hostKey) = some hostKey ↔ ¬keyType.Strays hostKey := by
  constructor
  · intro read strays
    rw [ofKey?_toKey_of_strays strays] at read
    cases read
  · exact ofKey?_toKey

/-- Whether two property keys are taken for the same string. -/
def Merges (keyType : KeyType) (first second : Key) : Prop :=
  keyType = .string ∧ first.display = second.display

variable {first second key : Key}

theorem Merges.broken (merges : keyType.Merges first second) (builtFirst : first.Built)
    (builtSecond : second.Built) (different : first ≠ second) :
    first.toText.toString? = none ∨ second.toText.toString? = none := by
  obtain ⟨_, shown⟩ := merges
  cases wholeFirst : first.toText.toString? with
  | none => exact .inl rfl
  | some string =>
    cases wholeSecond : second.toText.toString? with
    | none => exact .inr rfl
    | some other =>
      have textFirst := Text.toString?_eq_some_iff.mp wholeFirst
      have textSecond := Text.toString?_eq_some_iff.mp wholeSecond
      have same : string = other := by
        rw [← Text.toString_ofString string, ← textFirst, ← Text.toString_ofString other,
          ← textSecond]
        exact shown
      refine absurd (builtFirst.toText_inj builtSecond ?_) different
      rw [textFirst, textSecond, same]

/-- A key that denotes a 64-bit integer is its numeral. -/
theorem toText_of_ofKey?_int64 {n : Int64} (denotes : KeyType.int64.ofKey? key = some n) :
    key.toText = .ofString (toString n.toInt) := by
  cases key with
  | index i =>
    have below : (i.toNat : Int) < 2 ^ 63 := by
      have := i.toNat_lt
      omega
    have exact : (Int64.ofInt i.toNat).toInt = i.toNat :=
      Int64.toInt_ofInt_of_le (by omega) below
    have same : Int64.ofInt i.toNat = n := Option.some.inj denotes
    rw [← same, exact]
    rfl
  | named text =>
    have written : text.toString = toString n.toInt := eq_toString_of_int64OfNumeral? denotes
    cases whole : text.toString? with
    | some string =>
      have same := Text.toString?_eq_some_iff.mp whole
      rw [same, Text.toString_ofString] at written
      exact same.trans (congrArg Text.ofString written)
    | none =>
      have member := Text.mem_toString_of_toString?_eq_none whole
      rw [written] at member
      exact absurd member (not_mem_toString_int _ (by decide) (by decide))

/-- Keys that denote the same host key are the same, or they are taken for the same string. -/
theorem eq_or_merges_of_ofKey? (builtFirst : first.Built) (builtSecond : second.Built)
    (denotesFirst : keyType.ofKey? first = some hostKey)
    (denotesSecond : keyType.ofKey? second = some hostKey) :
    first = second ∨ keyType.Merges first second := by
  cases keyType with
  | string =>
    have same : first.display = second.display :=
      Option.some.inj (denotesFirst.trans denotesSecond.symm)
    exact .inr ⟨rfl, same⟩
  | uint32 =>
    cases first with
    | named text => cases denotesFirst
    | index i =>
      cases second with
      | named text => cases denotesSecond
      | index j =>
        have same : i = j := Option.some.inj (denotesFirst.trans denotesSecond.symm)
        exact .inl (congrArg Key.index same)
  | int64 =>
    have textFirst := toText_of_ofKey?_int64 denotesFirst
    have textSecond := toText_of_ofKey?_int64 denotesSecond
    exact .inl (builtFirst.toText_inj builtSecond (textFirst.trans textSecond.symm))

end ObjectModel.KeyType
