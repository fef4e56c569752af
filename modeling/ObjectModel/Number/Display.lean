import ObjectModel.Number.Shortest

/-!
The text of a number.

Whole numbers below `2 ^ 53` are written exactly, and whole numbers below `10 ^ 21` as their
shortest digits filled up with zeros.  Every other finite number is its shortest decimal, laid
out by the place of the point.
-/

namespace ObjectModel

structure DecimalLayout where
  plainUpTo : Int
  /-- Points above this one put zeros between the point and the first digit. -/
  zerosAbove : Int

/-- Numbers with up to 16 digits before the point, or up to four zeros after it, have no
exponent. -/
def Number.layout : DecimalLayout := ⟨16, -5⟩

namespace Decimal

def padded (decimal : Decimal) : List Char :=
  decimal.digits ++ List.replicate (decimal.point.toNat - decimal.digits.length) '0'

def render (layout : DecimalLayout) (decimal : Decimal) : List Char :=
  if 0 < decimal.point ∧ decimal.point ≤ layout.plainUpTo then
    let fraction := decimal.digits.drop decimal.point.toNat
    decimal.padded.take decimal.point.toNat ++ '.' :: (if fraction.isEmpty then ['0'] else fraction)
  else if layout.zerosAbove < decimal.point ∧ decimal.point ≤ 0 then
    '0' :: '.' :: List.replicate (-decimal.point).toNat '0' ++ decimal.digits
  else
    let exponent := 'e' :: (toString (decimal.point - 1)).toList
    match decimal.digits with
    | first :: next :: rest => first :: '.' :: next :: rest ++ exponent
    | digits => digits ++ exponent

end Decimal

namespace Number

def display : Number → String
  | .nan => "NaN"
  | .infinity negative => if negative then "-Infinity" else "Infinity"
  | .finite negative magnitude _ =>
    let sign := if negative ∧ magnitude ≠ 0 then ['-'] else []
    let whole := magnitude % unitsPerOne = 0
    if whole ∧ magnitude < exactBound * unitsPerOne then
      String.ofList (sign ++ Nat.toDigits 10 (magnitude / unitsPerOne))
    else if whole ∧ magnitude < tenPow 21 * unitsPerOne then
      String.ofList (sign ++ (Decimal.shortest magnitude).padded)
    else
      String.ofList (sign ++ (Decimal.shortest magnitude).render layout)

end Number

end ObjectModel
