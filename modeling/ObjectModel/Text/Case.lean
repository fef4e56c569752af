import ObjectModel.Text.CaseTables

/-!
Lower and upper case of character sequences, independent of any language.

Every character is mapped on its own, except that a capital sigma at the end of a word becomes
the final form of the small sigma.
-/

namespace ObjectModel

namespace Case

/-- The characters that a code point is mapped to, by the expansions first and then by the runs. -/
def mapChar (expansions : List (Nat × List Nat)) (runs : List CaseRun) (c : Char) : List Char :=
  match expansions.find? fun expansion => expansion.1 == c.toNat with
  | some expansion => expansion.2.map Char.ofNat
  | none => [((CaseRun.map? runs c.toNat).map Char.ofNat).getD c]

def upperChar (c : Char) : List Char := mapChar uppercaseExpansions uppercaseRuns c

def lowerChar (c : Char) : List Char := mapChar lowercaseExpansions lowercaseRuns c

def meetsCased (chars : List Char) : Bool :=
  match chars.dropWhile fun c => inRanges caseIgnorableRanges c.toNat with
  | c :: _ => inRanges casedRanges c.toNat
  | [] => false

/-- The lower case of a capital sigma between the characters before it, the last one first, and
those after it: the final form at the end of a word. -/
def lowerSigma (before after : List Char) : Char :=
  if meetsCased before && !meetsCased after then 'ς' else 'σ'

/-- The lower case of characters that follow those in `before`, the last one first. -/
def lowerAfter (before : List Char) : List Char → List Char
  | [] => []
  | c :: rest =>
    (if c = 'Σ' then [lowerSigma before rest] else lowerChar c) ++ lowerAfter (c :: before) rest

def lower (chars : List Char) : List Char := lowerAfter [] chars

def upper (chars : List Char) : List Char := chars.flatMap upperChar

def lowerByte (byte : UInt8) : UInt8 := if 0x41 ≤ byte ∧ byte ≤ 0x5A then byte + 32 else byte

def upperByte (byte : UInt8) : UInt8 := if 0x61 ≤ byte ∧ byte ≤ 0x7A then byte - 32 else byte

end Case

end ObjectModel
