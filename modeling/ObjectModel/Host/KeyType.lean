import ObjectModel.Key
import ObjectModel.Number.Literal

/-!
The key types of host maps, and their conversion from and to property keys.
-/

namespace ObjectModel

inductive KeyType
  | string
  | uint32
  | int64
  deriving DecidableEq, Repr

/-- The 64-bit integer whose decimal numeral is the given text. -/
def int64OfNumeral? (text : String) : Option Int64 :=
  let (negative, digits) := splitSign text.toList
  let magnitude := Int.ofNat (natOfDigits digits)
  let n := if negative then -magnitude else magnitude
  if !digits.isEmpty && digits.all isDecimalDigit && -0x8000000000000000 ≤ n &&
      n < 0x8000000000000000 && toString n == text then some (Int64.ofInt n)
  else none

namespace KeyType

def Carrier : KeyType → Type
  | .string => String
  | .uint32 => UInt32
  | .int64 => Int64

instance (type : KeyType) : DecidableEq type.Carrier :=
  match type with
  | .string => inferInstanceAs (DecidableEq String)
  | .uint32 => inferInstanceAs (DecidableEq UInt32)
  | .int64 => inferInstanceAs (DecidableEq Int64)

/-- The host key that a property key denotes. -/
def ofKey? : (type : KeyType) → Key → Option type.Carrier
  | .string, key => some key.display
  | .uint32, .index i => some i
  | .uint32, .named _ => none
  | .int64, .index i => some (Int64.ofNat i.toNat)
  | .int64, .named text => int64OfNumeral? text.toString

def toKey : (type : KeyType) → type.Carrier → Key
  | .string, s => .ofString s
  | .uint32, n => .ofIndex n
  | .int64, n => .ofString (toString (Int64.toInt n))

end KeyType

end ObjectModel
