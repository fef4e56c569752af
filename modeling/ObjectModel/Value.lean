import ObjectModel.Number.Display
import ObjectModel.Number.Literal
import ObjectModel.Text.Basic

/-!
Engine values.

Objects are values by their handle, the position of their cell in the heap.  Two values are equal
exactly when the engine cannot tell them apart: NaN is itself, and the two zeros differ.
-/

namespace ObjectModel

structure ObjectId where
  index : Nat
  deriving DecidableEq, Repr

inductive Value
  | undefined
  | null
  | boolean (b : Bool)
  | number (n : Number)
  | text (t : Text)
  | object (id : ObjectId)
  deriving DecidableEq

namespace Value

instance : Inhabited Value := ⟨.undefined⟩

def isNullish : Value → Bool
  | .undefined | .null => true
  | _ => false

def number? : Value → Option Number
  | .number n => some n
  | _ => none

def boolean? : Value → Option Bool
  | .boolean b => some b
  | _ => none

def text? : Value → Option Text
  | .text t => some t
  | _ => none

def object? : Value → Option ObjectId
  | .object id => some id
  | _ => none

def typeName : Value → String
  | .undefined => "undefined"
  | .null => "null"
  | .boolean _ => "boolean"
  | .number _ => "number"
  | .text _ => "string"
  | .object _ => "object"

/-- The number a value counts as; objects count as NaN. -/
def toNumber : Value → Number
  | .undefined => .nan
  | .null => .zero
  | .boolean b => .ofNat b.toNat
  | .number n => n
  | .text t => .ofText t.toString
  | .object _ => .nan

/-- Whether two values are the same value: NaN is itself, and the two zeros differ. -/
def same (a b : Value) : Bool := a == b

def display : Value → String
  | .undefined => "undefined"
  | .null => "null"
  | .boolean b => if b then "true" else "false"
  | .number n => n.display
  | .text t => t.toString
  | .object _ => "[object Object]"

end Value

end ObjectModel
