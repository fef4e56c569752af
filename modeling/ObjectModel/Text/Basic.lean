import ObjectModel.Text.Encoding

/-!
Engine text: a canonical encoding of a sequence of code units.

Two texts are equal exactly when their units are, because the units determine the storage.
-/

namespace ObjectModel

structure Text where
  encoding : Encoding
  canonical : encoding.Canonical
  deriving DecidableEq

namespace Text

def empty : Text := ⟨.empty, Encoding.canonical_empty⟩

instance : Inhabited Text := ⟨empty⟩

def ofUnits (units : List UInt16) : Text := ⟨.ofUnits units, Encoding.canonical_ofUnits units⟩

def ofChars (chars : List Char) : Text := ⟨.ofChars chars, Encoding.canonical_ofChars chars⟩

def ofString (string : String) : Text := ofChars string.toList

def units (text : Text) : List UInt16 := text.encoding.units

def length (text : Text) : Nat := text.encoding.length

def isNarrow (text : Text) : Bool := text.encoding.isNarrow

def bytes? (text : Text) : Option (List UInt8) := text.encoding.bytes?

def charAt? (text : Text) (position : Nat) : Option Text :=
  match found : text.encoding.charAt? position with
  | some piece => some ⟨piece, Encoding.canonical_charAt text.canonical found⟩
  | none => none

/-- The units from `start` up to `stop`, both clamped. -/
def substring (text : Text) (start stop : Nat) : Text :=
  ⟨text.encoding.substring start stop, Encoding.canonical_substring text.canonical start stop⟩

def concat (left right : Text) : Text :=
  ⟨left.encoding.concat right.encoding,
    Encoding.canonical_concat left.canonical right.canonical⟩

def lower (text : Text) : Text := ⟨text.encoding.lower, Encoding.canonical_lower text.canonical⟩

def upper (text : Text) : Text := ⟨text.encoding.upper, Encoding.canonical_upper text.canonical⟩

def compare (left right : Text) : Ordering := left.encoding.compare right.encoding

def toString (text : Text) : String := text.encoding.toString

def toString? (text : Text) : Option String := text.encoding.toString?

/-- Texts in ascending order; equal ones keep their places. -/
def sort (texts : List Text) : List Text := texts.mergeSort fun a b => a.compare b != .gt

end Text

end ObjectModel
