import ObjectModel.Host.Sequence

/-!
The collections that a host and a heap share, and what the host does to them.

The host speaks in untyped data; each datum is taken as an element or key of the collection's own
type.
-/

namespace ObjectModel

inductive Datum
  | absent
  | boolean (b : Bool)
  | integer (n : Int)
  | number (n : Number)
  | text (s : String)
  deriving DecidableEq

def Scalar.ofDatum? : (scalar : Scalar) → Datum → Option scalar.Carrier
  | .number, .number n => some n
  | .number, .integer n => some (Number.ofInt n)
  | .int64, .integer n => some (Int64.ofInt n)
  | .int32, .integer n => some (Int32.ofInt n)
  | .uint32, .integer n => some (UInt32.ofNat n.toNat)
  | .boolean, .boolean b => some b
  | .string, .text s => some s
  | _, _ => none

def ElementType.ofDatum? : (type : ElementType) → Datum → Option type.Carrier
  | .plain scalar, datum => scalar.ofDatum? datum
  | .optional _, .absent => some none
  | .optional inner, datum => (inner.ofDatum? datum).map some

def Scalar.toDatum : (scalar : Scalar) → scalar.Carrier → Datum
  | .number, n => .number n
  | .int64, n => .integer (Int64.toInt n)
  | .int32, n => .integer (Int32.toInt n)
  | .uint32, n => .integer (UInt32.toNat n)
  | .boolean, b => .boolean b
  | .string, s => .text s

def ElementType.toDatum : (type : ElementType) → type.Carrier → Datum
  | .plain scalar, element => scalar.toDatum element
  | .optional _, none => .absent
  | .optional inner, some element => inner.toDatum element

def KeyType.ofDatum? : (type : KeyType) → Datum → Option type.Carrier
  | .string, .text s => some s
  | .uint32, .integer n => some (UInt32.ofNat n.toNat)
  | .int64, .integer n => some (Int64.ofInt n)
  | _, _ => none

def KeyType.toDatum : (type : KeyType) → type.Carrier → Datum
  | .string, s => .text s
  | .uint32, n => .integer (UInt32.toNat n)
  | .int64, n => .integer (Int64.toInt n)

inductive Collection
  | map {keyType : KeyType} {elementType : ElementType}
      (entries : OrderedMap keyType.Carrier elementType.Carrier)
  | sequence {elementType : ElementType} (items : List elementType.Carrier)

inductive CollectionEdit
  | read
  | clear
  | insert (place datum : Datum)
  | remove (place : Datum)
  | push (datum : Datum)
  deriving DecidableEq

namespace Collection

def mapOf? (keyType : KeyType) (elementType : ElementType) (data : List (Datum × Datum)) :
    Option Collection := do
  let entries ← data.mapM fun entry => do
    return (← keyType.ofDatum? entry.1, ← elementType.ofDatum? entry.2)
  return .map (OrderedMap.ofList entries)

def sequenceOf? (elementType : ElementType) (data : List Datum) : Option Collection := do
  return .sequence (← data.mapM elementType.ofDatum?)

/-- The collection after an edit; an edit that does not fit the collection changes nothing. -/
def edit (collection : Collection) (edit : CollectionEdit) : Collection :=
  match collection with
  | @map keyType elementType entries =>
    match edit with
    | .clear => .map (OrderedMap.empty : OrderedMap keyType.Carrier elementType.Carrier)
    | .insert place datum =>
      match keyType.ofDatum? place, elementType.ofDatum? datum with
      | some hostKey, some element => .map (entries.insert hostKey element)
      | _, _ => collection
    | .remove place =>
      match keyType.ofDatum? place with
      | some hostKey => .map (entries.erase hostKey)
      | none => collection
    | .read | .push _ => collection
  | @sequence elementType items =>
    match edit with
    | .clear => .sequence ([] : List elementType.Carrier)
    | .insert (.integer index) datum =>
      match elementType.ofDatum? datum with
      | some element => .sequence (items.set index.toNat element)
      | none => collection
    | .remove (.integer index) => .sequence (items.eraseIdx index.toNat)
    | .push datum =>
      match elementType.ofDatum? datum with
      | some element => .sequence (items ++ [element])
      | none => collection
    | .read | .insert .. | .remove _ => collection

end Collection

end ObjectModel
