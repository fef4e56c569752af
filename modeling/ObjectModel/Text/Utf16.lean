/-!
UTF-16: characters as one or two code units.

A code unit sequence is decoded from the left.  A high surrogate followed by a low one is one
character; a surrogate without its partner is kept as a lone unit.
-/

namespace ObjectModel

/-- What a decoded code unit sequence consists of. -/
inductive CodePoint
  | char (c : Char)
  | lone (surrogate : UInt16)
  deriving DecidableEq, Repr

namespace CodePoint

/-- The number of a code point; a lone surrogate counts as its unit. -/
def value : CodePoint → Nat
  | .char c => c.toNat
  | .lone unit => unit.toNat

/-- The character shown for a code point; a lone surrogate has none and shows as U+FFFD. -/
def shown : CodePoint → Char
  | .char c => c
  | .lone _ => '\uFFFD'

def char? : CodePoint → Option Char
  | .char c => some c
  | .lone _ => none

end CodePoint

namespace Utf16

def isHighSurrogate (unit : UInt16) : Bool := 0xD800 ≤ unit.toNat && unit.toNat < 0xDC00

def isLowSurrogate (unit : UInt16) : Bool := 0xDC00 ≤ unit.toNat && unit.toNat < 0xE000

def single (unit : UInt16) : CodePoint :=
  if isHighSurrogate unit || isLowSurrogate unit then .lone unit else .char (Char.ofNat unit.toNat)

def pair (high low : UInt16) : Char :=
  Char.ofNat (0x10000 + (high.toNat - 0xD800) * 0x400 + (low.toNat - 0xDC00))

def decode : List UInt16 → List CodePoint
  | [] => []
  | [unit] => [single unit]
  | unit :: next :: rest =>
    if isHighSurrogate unit && isLowSurrogate next then .char (pair unit next) :: decode rest
    else single unit :: decode (next :: rest)

def encodeChar (c : Char) : List UInt16 :=
  if c.toNat < 0x10000 then [UInt16.ofNat c.toNat]
  else
    [UInt16.ofNat (0xD800 + (c.toNat - 0x10000) / 0x400),
      UInt16.ofNat (0xDC00 + (c.toNat - 0x10000) % 0x400)]

def encode (chars : List Char) : List UInt16 := chars.flatMap encodeChar

end Utf16

end ObjectModel
