import ObjectModel.Fault
import ObjectModel.Tree

/-!
The types of the elements of host collections, and their conversion from and to engine values.

A conversion is strict: a value of the wrong kind, or a number that the type does not hold, is a
mismatch and never coerced.
-/

namespace ObjectModel

inductive Scalar
  | number
  | int64
  | int32
  | uint32
  | boolean
  | string
  deriving DecidableEq, Repr

namespace Scalar

def Carrier : Scalar → Type
  | .number => Number
  | .int64 => Int64
  | .int32 => Int32
  | .uint32 => UInt32
  | .boolean => Bool
  | .string => String

instance (scalar : Scalar) : DecidableEq scalar.Carrier :=
  match scalar with
  | .number => inferInstanceAs (DecidableEq Number)
  | .int64 => inferInstanceAs (DecidableEq Int64)
  | .int32 => inferInstanceAs (DecidableEq Int32)
  | .uint32 => inferInstanceAs (DecidableEq UInt32)
  | .boolean => inferInstanceAs (DecidableEq Bool)
  | .string => inferInstanceAs (DecidableEq String)

def default : (scalar : Scalar) → scalar.Carrier
  | .number => Number.zero
  | .int64 => (0 : Int64)
  | .int32 => (0 : Int32)
  | .uint32 => (0 : UInt32)
  | .boolean => false
  | .string => ""

def toValue : (scalar : Scalar) → scalar.Carrier → Value
  | .number, n => .number n
  | .int64, n => .number (.ofInt (Int64.toInt n))
  | .int32, n => .number (.ofInt (Int32.toInt n))
  | .uint32, n => .number (.ofNat (UInt32.toNat n))
  | .boolean, b => .boolean b
  | .string, s => .text (.ofString s)

def mismatch (value : Value) (target : String) : Fault :=
  .typeMismatch (.conversion value.typeName target)

/-- The whole number up to `2 ^ 53` in magnitude that a value is. -/
def integerOf (value : Value) : Except Fault Int :=
  match value.number?.bind Number.toInt? with
  | some n => if n.natAbs ≤ exactBound then .ok n else .error (mismatch value "integer")
  | none => .error (mismatch value "integer")

def ofValue (scalar : Scalar) (value : Value) : Except Fault scalar.Carrier :=
  match scalar with
  | .number =>
    match value with
    | .number n => .ok n
    | _ => .error (mismatch value "number")
  | .int64 => do
    let n ← integerOf value
    return Int64.ofInt n
  | .int32 => do
    let n ← integerOf value
    if -0x80000000 ≤ n ∧ n < 0x80000000 then return Int32.ofInt n
    else throw (mismatch value "int32")
  | .uint32 => do
    let n ← integerOf value
    if 0 ≤ n ∧ n < 0x100000000 then return UInt32.ofNat n.toNat
    else throw (mismatch value "uint32")
  | .boolean =>
    match value with
    | .boolean b => .ok b
    | _ => .error (mismatch value "boolean")
  | .string =>
    match value with
    | .text t => .ok t.toString
    | _ => .error (mismatch value "string")

def toTree : (scalar : Scalar) → scalar.Carrier → Tree
  | .number, n => .ofFloat n
  | .int64, n => .integer (Int64.toInt n)
  | .int32, n => .integer (Int32.toInt n)
  | .uint32, n => .integer (UInt32.toNat n)
  | .boolean, b => .boolean b
  | .string, s => .text s

end Scalar

/-- The type of the elements of a host collection: a host type, or elements that may be absent. -/
inductive ElementType
  | plain (scalar : Scalar)
  | optional (inner : ElementType)
  deriving DecidableEq, Repr

namespace ElementType

def Carrier : ElementType → Type
  | .plain scalar => scalar.Carrier
  | .optional inner => Option inner.Carrier

instance decidableEqCarrier : (type : ElementType) → DecidableEq type.Carrier
  | .plain scalar => inferInstanceAs (DecidableEq scalar.Carrier)
  | .optional inner =>
    letI := decidableEqCarrier inner
    inferInstanceAs (DecidableEq (Option inner.Carrier))

def default : (type : ElementType) → type.Carrier
  | .plain scalar => scalar.default
  | .optional _ => none

def toValue : (type : ElementType) → type.Carrier → Value
  | .plain scalar, element => scalar.toValue element
  | .optional _, none => .null
  | .optional inner, some element => inner.toValue element

/-- The element of an engine value; `undefined` and `null` are the absent one. -/
def ofValue : (type : ElementType) → Value → Except Fault type.Carrier
  | .plain scalar, value => scalar.ofValue value
  | .optional inner, value =>
    if value.isNullish then .ok none else (inner.ofValue value).map some

def toTree : (type : ElementType) → type.Carrier → Tree
  | .plain scalar, element => scalar.toTree element
  | .optional _, none => .null
  | .optional inner, some element => inner.toTree element

end ElementType

def Text.ofValue : Value → Except Fault Text
  | .text t => .ok t
  | value => .error (Scalar.mismatch value "string")

end ObjectModel
