import ObjectModel.Text.Case
import ObjectModel.Text.Utf16

/-!
The two storages of engine text and the operations on them.

Text is a sequence of UTF-16 code units, stored *narrow*, one byte for each unit, or *wide*.
Lengths and positions always count units.  An encoding is canonical when it is narrow exactly if
all units are ASCII; every operation below keeps its results canonical, so the storage is
determined by the units.
-/

namespace ObjectModel

inductive Encoding
  | narrow (bytes : List UInt8)
  | wide (units : List UInt16)
  deriving DecidableEq, Repr

def firstMatch {α : Type} [BEq α] (pattern : List α) : (position : Nat) → List α → Option Nat
  | position, [] => if pattern.isEmpty then some position else none
  | position, unit :: rest =>
    if pattern.isPrefixOf (unit :: rest) then some position
    else firstMatch pattern (position + 1) rest

/-- The position of the last match of a pattern among the first `count` positions of a list whose
head has position `position`. -/
def lastMatch {α : Type} [BEq α] (pattern : List α) :
    (position count : Nat) → List α → Option Nat
  | _, 0, _ => none
  | position, _ + 1, [] => if pattern.isEmpty then some position else none
  | position, count + 1, unit :: rest =>
    match lastMatch pattern (position + 1) count rest with
    | some found => some found
    | none => if pattern.isPrefixOf (unit :: rest) then some position else none

namespace Encoding

def units : Encoding → List UInt16
  | .narrow bytes => bytes.map UInt8.toUInt16
  | .wide units => units

def isNarrow : Encoding → Bool
  | .narrow _ => true
  | .wide _ => false

def bytes? : Encoding → Option (List UInt8)
  | .narrow bytes => some bytes
  | .wide _ => none

def length : Encoding → Nat
  | .narrow bytes => bytes.length
  | .wide units => units.length

/-- Narrow storage holds exactly the texts of ASCII units. -/
def Canonical (text : Encoding) : Prop :=
  text.isNarrow = true ↔ ∀ unit ∈ text.units, unit < 0x80

def empty : Encoding := .narrow []

def ofUnits (units : List UInt16) : Encoding :=
  if units.all (· < 0x80) then .narrow (units.map UInt16.toUInt8) else .wide units

def ofChars (chars : List Char) : Encoding :=
  if chars.all (·.toNat < 0x80) then .narrow (chars.map fun c => UInt8.ofNat c.toNat)
  else .wide (Utf16.encode chars)

def ofString (string : String) : Encoding := ofChars string.toList

def unitAt? (text : Encoding) (position : Nat) : Option UInt16 :=
  match text with
  | .narrow bytes => bytes[position]?.map UInt8.toUInt16
  | .wide units => units[position]?

def charAt? (text : Encoding) (position : Nat) : Option Encoding :=
  match text with
  | .narrow bytes => bytes[position]?.map fun byte => .narrow [byte]
  | .wide units => units[position]?.map fun unit => ofUnits [unit]

/-- The units from `start` up to, not including, `stop`; both are clamped, `stop` first. -/
def substring (text : Encoding) (start stop : Nat) : Encoding :=
  let stop := min stop text.length
  let start := min start stop
  match text with
  | .narrow bytes => .narrow ((bytes.take stop).drop start)
  | .wide units => ofUnits ((units.take stop).drop start)

/-- One text after another; wide if one of them is. -/
def concat (left right : Encoding) : Encoding :=
  match left, right with
  | .narrow leftBytes, .narrow rightBytes => .narrow (leftBytes ++ rightBytes)
  | _, _ => .wide (left.units ++ right.units)

/-- The first position from `start` on at which `pattern` occurs. -/
def indexOf (text pattern : Encoding) (start : Nat) : Option Nat :=
  if start + pattern.length ≤ text.length then
    match text, pattern with
    | .narrow bytes, .narrow wanted => firstMatch wanted start (bytes.drop start)
    | _, _ => firstMatch pattern.units start (text.units.drop start)
  else none

/-- The last position up to `start` at which `pattern` occurs. -/
def lastIndexOf (text pattern : Encoding) (start : Nat) : Option Nat :=
  if pattern.length ≤ text.length then
    let count := min start (text.length - pattern.length) + 1
    match text, pattern with
    | .narrow bytes, .narrow wanted => lastMatch wanted 0 count bytes
    | _, _ => lastMatch pattern.units 0 count text.units
  else none

def codePoints (text : Encoding) : List CodePoint := Utf16.decode text.units

/-- The characters shown for a text; a lone surrogate shows as U+FFFD. -/
def chars : Encoding → List Char
  | .narrow bytes => bytes.map fun byte => Char.ofNat byte.toNat
  | .wide units => (Utf16.decode units).map CodePoint.shown

def toString (text : Encoding) : String := String.ofList text.chars

def toString? (text : Encoding) : Option String :=
  (text.codePoints.mapM CodePoint.char?).map String.ofList

def lower : Encoding → Encoding
  | .narrow bytes => .narrow (bytes.map Case.lowerByte)
  | text@(.wide _) => ofChars (Case.lower text.chars)

def upper : Encoding → Encoding
  | .narrow bytes => .narrow (bytes.map Case.upperByte)
  | text@(.wide _) => ofChars (Case.upper text.chars)

/-- The order of texts by code points; a lone surrogate counts as its unit. -/
def compare (left right : Encoding) : Ordering :=
  match left, right with
  | .narrow leftBytes, .narrow rightBytes => Ord.compare leftBytes rightBytes
  | _, _ => Ord.compare (left.codePoints.map CodePoint.value) (right.codePoints.map CodePoint.value)

def sameUnits (left right : Encoding) : Bool :=
  match left, right with
  | .narrow leftBytes, .narrow rightBytes => leftBytes == rightBytes
  | .wide leftUnits, .wide rightUnits => leftUnits == rightUnits
  | _, _ => left.length == right.length && left.units == right.units

@[simp]
theorem units_narrow (bytes : List UInt8) :
    (narrow bytes).units = bytes.map UInt8.toUInt16 := rfl

@[simp]
theorem units_wide (units : List UInt16) : (wide units).units = units := rfl

@[simp]
theorem length_units (text : Encoding) : text.units.length = text.length := by
  cases text <;> simp [units, length]

theorem toUInt16_lt {byte : UInt8} : byte.toUInt16 < 0x80 ↔ byte < 0x80 := by
  simp [UInt16.lt_iff_toNat_lt, UInt8.lt_iff_toNat_lt]

theorem toUInt16_toUInt8 {unit : UInt16} (ascii : unit < 0x80) : unit.toUInt8.toUInt16 = unit := by
  have below : unit.toNat < 0x80 := by simpa [UInt16.lt_iff_toNat_lt] using ascii
  apply UInt16.toNat.inj
  simp only [UInt8.toNat_toUInt16, UInt16.toNat_toUInt8]
  omega

theorem canonical_narrow_iff {bytes : List UInt8} :
    (narrow bytes).Canonical ↔ ∀ byte ∈ bytes, byte < 0x80 := by
  simp [Canonical, isNarrow, toUInt16_lt]

theorem canonical_wide_iff {units : List UInt16} :
    (wide units).Canonical ↔ ∃ unit ∈ units, 0x80 ≤ unit := by
  simp [Canonical, isNarrow]

theorem canonical_empty : empty.Canonical := canonical_narrow_iff.mpr (by simp)

@[simp]
theorem units_ofUnits (units : List UInt16) : (ofUnits units).units = units := by
  unfold ofUnits
  split
  next ascii =>
    have below : ∀ unit ∈ units, unit < 0x80 := by simpa using ascii
    simp only [units_narrow, List.map_map]
    exact (List.map_congr_left fun unit member => toUInt16_toUInt8 (below unit member)).trans
      (List.map_id units)
  next => rfl

theorem canonical_ofUnits (units : List UInt16) : (ofUnits units).Canonical := by
  unfold ofUnits
  split
  next ascii =>
    have below : ∀ unit ∈ units, unit < 0x80 := by simpa using ascii
    rw [canonical_narrow_iff]
    intro byte member
    obtain ⟨unit, inUnits, rfl⟩ := List.mem_map.mp member
    rw [← toUInt16_lt, toUInt16_toUInt8 (below unit inUnits)]
    exact below unit inUnits
  next other =>
    rw [canonical_wide_iff]
    simpa using other

theorem exists_mem_encodeChar {c : Char} (large : 0x80 ≤ c.toNat) :
    ∃ unit ∈ Utf16.encodeChar c, 0x80 ≤ unit := by
  unfold Utf16.encodeChar
  split
  next small =>
    refine ⟨UInt16.ofNat c.toNat, by simp, ?_⟩
    rw [UInt16.le_iff_toNat_le]
    simp only [UInt16.toNat_ofNat']
    have : c.toNat % 2 ^ 16 = c.toNat := Nat.mod_eq_of_lt small
    rw [this]
    exact large
  next =>
    refine ⟨UInt16.ofNat (0xDC00 + (c.toNat - 0x10000) % 0x400), by simp, ?_⟩
    rw [UInt16.le_iff_toNat_le]
    simp only [UInt16.toNat_ofNat']
    have : (c.toNat - 0x10000) % 0x400 < 0x400 := Nat.mod_lt _ (by decide)
    rw [Nat.mod_eq_of_lt (by omega)]
    show 0x80 ≤ _
    omega

theorem canonical_ofChars (chars : List Char) : (ofChars chars).Canonical := by
  unfold ofChars
  split
  next ascii =>
    have below : ∀ c ∈ chars, c.toNat < 0x80 := by simpa using ascii
    rw [canonical_narrow_iff]
    intro byte member
    obtain ⟨c, inChars, rfl⟩ := List.mem_map.mp member
    have small := below c inChars
    rw [UInt8.lt_iff_toNat_lt]
    simp only [UInt8.toNat_ofNat']
    rw [Nat.mod_eq_of_lt (by omega)]
    exact small
  next other =>
    rw [canonical_wide_iff]
    obtain ⟨c, inChars, large⟩ : ∃ c ∈ chars, 0x80 ≤ c.toNat := by simpa using other
    obtain ⟨unit, inUnits, high⟩ := exists_mem_encodeChar large
    exact ⟨unit, List.mem_flatMap.mpr ⟨c, inChars, inUnits⟩, high⟩

theorem canonical_charAt {text piece : Encoding} {position : Nat} (canonical : text.Canonical)
    (found : text.charAt? position = some piece) : piece.Canonical := by
  cases text with
  | narrow bytes =>
    obtain ⟨byte, read, rfl⟩ := Option.map_eq_some_iff.mp found
    rw [canonical_narrow_iff] at canonical ⊢
    simpa using canonical byte (List.mem_of_getElem? read)
  | wide units =>
    obtain ⟨unit, _, rfl⟩ := Option.map_eq_some_iff.mp found
    exact canonical_ofUnits [unit]

theorem canonical_substring {text : Encoding} (canonical : text.Canonical) (start stop : Nat) :
    (text.substring start stop).Canonical := by
  cases text with
  | narrow bytes =>
    rw [canonical_narrow_iff] at canonical
    exact canonical_narrow_iff.mpr fun byte member =>
      canonical byte (List.mem_of_mem_take (List.mem_of_mem_drop member))
  | wide units => exact canonical_ofUnits _

theorem canonical_concat {left right : Encoding} (canonicalLeft : left.Canonical)
    (canonicalRight : right.Canonical) : (left.concat right).Canonical := by
  cases left with
  | narrow leftBytes =>
    cases right with
    | narrow rightBytes =>
      rw [canonical_narrow_iff] at canonicalLeft canonicalRight
      exact canonical_narrow_iff.mpr fun byte member =>
        (List.mem_append.mp member).elim (canonicalLeft byte) (canonicalRight byte)
    | wide rightUnits =>
      obtain ⟨unit, member, high⟩ := canonical_wide_iff.mp canonicalRight
      exact canonical_wide_iff.mpr ⟨unit, List.mem_append_right _ member, high⟩
  | wide leftUnits =>
    obtain ⟨unit, member, high⟩ := canonical_wide_iff.mp canonicalLeft
    exact canonical_wide_iff.mpr ⟨unit, List.mem_append_left _ member, high⟩

theorem lowerByte_lt {byte : UInt8} (ascii : byte < 0x80) : Case.lowerByte byte < 0x80 := by
  unfold Case.lowerByte
  simp only [UInt8.le_iff_toNat_le, UInt8.lt_iff_toNat_lt] at *
  split
  next letter =>
    rw [UInt8.toNat_add]
    simp at *
    omega
  next => exact ascii

theorem upperByte_lt {byte : UInt8} (ascii : byte < 0x80) : Case.upperByte byte < 0x80 := by
  unfold Case.upperByte
  simp only [UInt8.le_iff_toNat_le, UInt8.lt_iff_toNat_lt] at *
  split
  next letter =>
    rw [UInt8.toNat_sub]
    simp at *
    omega
  next => exact ascii

theorem canonical_lower {text : Encoding} (canonical : text.Canonical) : text.lower.Canonical := by
  cases text with
  | narrow bytes =>
    rw [canonical_narrow_iff] at canonical
    refine canonical_narrow_iff.mpr fun byte member => ?_
    obtain ⟨source, inBytes, rfl⟩ := List.mem_map.mp member
    exact lowerByte_lt (canonical source inBytes)
  | wide units => exact canonical_ofChars _

theorem canonical_upper {text : Encoding} (canonical : text.Canonical) : text.upper.Canonical := by
  cases text with
  | narrow bytes =>
    rw [canonical_narrow_iff] at canonical
    refine canonical_narrow_iff.mpr fun byte member => ?_
    obtain ⟨source, inBytes, rfl⟩ := List.mem_map.mp member
    exact upperByte_lt (canonical source inBytes)
  | wide units => exact canonical_ofChars _

end Encoding

end ObjectModel
