import ObjectModel.Text.Basic

/-!
Property keys.

A key is an array index or any other text.  The texts of indices are the decimal numerals up to
`2 ^ 32 - 2` without leading zeros, and building a key from a text recognizes them.
-/

namespace ObjectModel

def maxArrayIndex : Nat := 0xFFFFFFFE

/-- The array index that ASCII digits write: no leading zeros, at most `2 ^ 32 - 2`. -/
def parseArrayIndex : List UInt8 → Option UInt32
  | [] => none
  | [0x30] => some 0
  | 0x30 :: _ :: _ => none
  | bytes =>
    if 10 < bytes.length then none
    else if bytes.all fun byte => 0x30 ≤ byte && byte ≤ 0x39 then
      let value := bytes.foldl (fun value byte => value * 10 + (byte.toNat - 0x30)) 0
      if value ≤ maxArrayIndex then some (UInt32.ofNat value) else none
    else none

inductive Key
  | index (i : UInt32)
  | named (text : Text)
  deriving DecidableEq

namespace Key

def ofText (text : Text) : Key :=
  match text.bytes?.bind parseArrayIndex with
  | some i => .index i
  | none => .named text

def ofString (string : String) : Key := ofText (.ofString string)

/-- The key of a position; `2 ^ 32 - 1` is not an array index and stands as text. -/
def ofIndex (i : UInt32) : Key :=
  if i.toNat ≤ maxArrayIndex then .index i else .named (.ofString (toString i.toNat))

def index? : Key → Option UInt32
  | .index i => some i
  | .named _ => none

def length : Key := .named (.ofString "length")

def proto : Key := .named (.ofString "__proto__")

def name : Key := .named (.ofString "name")

def isLength : Key → Bool
  | .index _ => false
  | .named text => text.bytes? == some [0x6C, 0x65, 0x6E, 0x67, 0x74, 0x68]

def isProto : Key → Bool
  | .index _ => false
  | .named text => text.bytes? == some [0x5F, 0x5F, 0x70, 0x72, 0x6F, 0x74, 0x6F, 0x5F, 0x5F]

def toText : Key → Text
  | .index i => .ofString (toString i.toNat)
  | .named text => text

/-- The string shown for a key; a lone surrogate shows as U+FFFD. -/
def display (key : Key) : String := key.toText.toString

end Key

end ObjectModel
