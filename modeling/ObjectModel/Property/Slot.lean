import ObjectModel.Value

/-!
Properties as they are stored and described.

A property is described by a value or a pair of functions, with its attributes.  The common case,
a value with all attributes set, is stored as the bare value.
-/

namespace ObjectModel

structure Attributes where
  writable : Bool
  enumerable : Bool
  configurable : Bool
  deriving DecidableEq, Repr

namespace Attributes

/-- All attributes set, as for a property made by assignment. -/
def standard : Attributes := ⟨true, true, true⟩

def locked : Attributes := ⟨false, false, false⟩

end Attributes

inductive Descriptor
  | data (value : Value) (attributes : Attributes)
  | accessor (get set : Option Value) (attributes : Attributes)
  deriving DecidableEq

namespace Descriptor

def attributes : Descriptor → Attributes
  | .data _ attributes => attributes
  | .accessor _ _ attributes => attributes

def value? : Descriptor → Option Value
  | .data value _ => some value
  | .accessor .. => none

def isAccessor : Descriptor → Bool
  | .data .. => false
  | .accessor .. => true

def isWritable : Descriptor → Bool
  | .data _ attributes => attributes.writable
  | .accessor .. => false

def isEnumerable (descriptor : Descriptor) : Bool := descriptor.attributes.enumerable

def isConfigurable (descriptor : Descriptor) : Bool := descriptor.attributes.configurable

/-- An accessor with the given functions; `writable` is not set for accessors. -/
def ofAccessor (get set : Option Value) (enumerable configurable : Bool) : Descriptor :=
  .accessor get set ⟨false, enumerable, configurable⟩

end Descriptor

inductive Slot
  | bare (value : Value)
  | described (descriptor : Descriptor)
  deriving DecidableEq

namespace Slot

def descriptor : Slot → Descriptor
  | .bare value => .data value .standard
  | .described descriptor => descriptor

/-- Store a description; a value with all attributes set is stored bare. -/
def ofDescriptor : Descriptor → Slot
  | .data value attributes =>
    if attributes = .standard then .bare value else .described (.data value attributes)
  | descriptor => .described descriptor

def isDescribed : Slot → Bool
  | .bare _ => false
  | .described _ => true

def isWritable (slot : Slot) : Bool := slot.descriptor.isWritable

def isEnumerable (slot : Slot) : Bool := slot.descriptor.isEnumerable

def isConfigurable (slot : Slot) : Bool := slot.descriptor.isConfigurable

/-- A value that nobody may overwrite, delete or describe anew. -/
def fixed (value : Value) (enumerable : Bool) : Slot :=
  .described (.data value ⟨false, enumerable, false⟩)

/-- Overwrite the value of a writable property, keeping its attributes. -/
def write? (slot : Slot) (value : Value) : Option Slot :=
  match slot with
  | .bare _ => some (.bare value)
  | .described (.data _ attributes) =>
    if attributes.writable then some (.described (.data value attributes)) else none
  | .described (.accessor ..) => none

@[simp]
theorem descriptor_ofDescriptor (descriptor : Descriptor) :
    (ofDescriptor descriptor).descriptor = descriptor := by
  cases descriptor with
  | data value attributes =>
    simp only [ofDescriptor]
    split
    next equal => rw [equal]; rfl
    next => rfl
  | accessor get set attributes => rfl

theorem isSome_write? (slot : Slot) (value : Value) :
    (slot.write? value).isSome = slot.isWritable := by
  cases slot with
  | bare => rfl
  | described descriptor =>
    cases descriptor with
    | data old attributes =>
      cases writable : attributes.writable <;>
        simp [write?, isWritable, Slot.descriptor, Descriptor.isWritable, writable]
    | accessor => rfl

end Slot

end ObjectModel
