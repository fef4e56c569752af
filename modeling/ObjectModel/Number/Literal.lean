import ObjectModel.Number.Basic
import ObjectModel.Text.WhiteSpace

/-!
Reading a number from text.

White space around the number is ignored and nothing at all is zero.  A text with a radix mark is a
whole number in that radix.  Any other text is `Infinity`, possibly behind a sign, or is read by the
library, after a look at its bytes: the library also knows words that are not numbers here.
-/

namespace ObjectModel

def digitValue? (radix : Nat) (c : Char) : Option Nat :=
  let value :=
    if '0' ≤ c ∧ c ≤ '9' then c.toNat - '0'.toNat
    else if 'a' ≤ c ∧ c ≤ 'f' then c.toNat - 'a'.toNat + 10
    else if 'A' ≤ c ∧ c ≤ 'F' then c.toNat - 'A'.toNat + 10
    else 16
  if value < radix then some value else none

def isDecimalDigit (c : Char) : Bool := '0' ≤ c && c ≤ '9'

def natOfDigits (digits : List Char) : Nat :=
  digits.foldl (fun value c => value * 10 + (c.toNat - '0'.toNat)) 0

def splitSign : List Char → Bool × List Char
  | '+' :: rest => (false, rest)
  | '-' :: rest => (true, rest)
  | chars => (false, chars)

structure DecimalLiteral where
  whole : List Char
  fraction : List Char
  exponent : Int
  deriving DecidableEq, Repr

namespace DecimalLiteral

def exponent? : List Char → Option Int
  | [] => some 0
  | mark :: rest =>
    let (negative, digits) := splitSign rest
    if (mark == 'e' || mark == 'E') && !digits.isEmpty && digits.all isDecimalDigit then
      some (if negative then -Int.ofNat (natOfDigits digits) else Int.ofNat (natOfDigits digits))
    else none

/-- Read a literal: digits before the point, after it, or both, and possibly an exponent. -/
def ofChars? (chars : List Char) : Option DecimalLiteral :=
  let whole := chars.takeWhile isDecimalDigit
  let (fraction, rest) :=
    match chars.dropWhile isDecimalDigit with
    | '.' :: rest => (rest.takeWhile isDecimalDigit, rest.dropWhile isDecimalDigit)
    | rest => ([], rest)
  if whole.isEmpty && fraction.isEmpty then none
  else (exponent? rest).map fun exponent => ⟨whole, fraction, exponent⟩

/-- The number nearest to a literal.  A literal with a digit other than zero at or above
`10 ^ 309` is infinite, and one below `10 ^ -330` is zero. -/
def toNumber (negative : Bool) (literal : DecimalLiteral) : Number :=
  let digits := (literal.whole ++ literal.fraction).dropWhile (· == '0')
  let scale := literal.exponent - literal.fraction.length
  let point := scale + digits.length
  if digits.isEmpty then .ofUnits negative 0 1
  else if 310 ≤ point then .infinity negative
  else if point ≤ -330 then .ofUnits negative 0 1
  else if 0 ≤ scale then
    .ofUnits negative (natOfDigits digits * tenPow scale.toNat * unitsPerOne) 1
  else .ofUnits negative (natOfDigits digits * unitsPerOne) (tenPow (-scale).toNat)

end DecimalLiteral

namespace Number

def ofRadixDigits (radix : Nat) (digits : List Char) : Number :=
  if digits.isEmpty then .nan
  else
    (digits.foldl
      (fun read c => read.bind fun value =>
        (digitValue? radix c).map fun digit => appendDigit radix digit value)
      (some zero)).getD .nan

def splitRadix? : List Char → Option (Nat × List Char)
  | '0' :: mark :: rest =>
    if mark = 'x' ∨ mark = 'X' then some (16, rest)
    else if mark = 'o' ∨ mark = 'O' then some (8, rest)
    else if mark = 'b' ∨ mark = 'B' then some (2, rest)
    else none
  | _ => none

/-- Read a number as the library does, which takes more than a literal: infinities and NaN are
written as words, in letters of either case. -/
def ofLiteral? (chars : List Char) : Option Number :=
  let (negative, unsigned) := splitSign chars
  let word := unsigned.map Char.toLower
  if word = "inf".toList ∨ word = "infinity".toList then some (.infinity negative)
  else if word = "nan".toList then some .nan
  else (DecimalLiteral.ofChars? unsigned).map fun literal => literal.toNumber negative

def isLiteralByte (byte : UInt8) : Bool :=
  ('0'.toUInt8 ≤ byte && byte ≤ '9'.toUInt8) || ".eE+-".toList.any fun c => c.toUInt8 == byte

/-- The number that a text without white space around it writes. -/
def ofTrimmed (chars : List Char) : Number :=
  match splitRadix? chars with
  | some (radix, digits) => ofRadixDigits radix digits
  | none =>
    let (negative, unsigned) := splitSign chars
    if unsigned = "Infinity".toList then .infinity negative
    else if (unsigned.flatMap String.utf8EncodeChar).all isLiteralByte then
      (ofLiteral? chars).getD .nan
    else .nan

def ofText (text : String) : Number :=
  match trimBoth surroundsNumber text.toList with
  | [] => zero
  | chars => ofTrimmed chars

end Number

end ObjectModel
