import ObjectModel.Proofs.Array.Reachable

/-!
# Arrays without storage

The reference for arrays: a finite map from indices to slots, a length that may be read-only, and an
ordinary object for the other keys.  It knows no storage, no policy and no counts.
-/

namespace ObjectModel

/-- An array as a finite map of its elements. -/
structure ReferenceArray where
  base : OrdinaryObject
  elements : AscendingMap Slot
  length : Nat
  lengthWritable : Bool

namespace ReferenceArray

def new (prototype : Option ObjectId) : ReferenceArray := ⟨.new prototype, .empty, 0, true⟩

/-- Shrink or grow to a length; elements from there on are gone. -/
def cut (array : ReferenceArray) (length : Nat) : ReferenceArray :=
  { array with
    elements := array.elements.filterIndex fun index => index < length
    length }

def setLength (array : ReferenceArray) (length : Nat) : Verdict × ReferenceArray :=
  if length = array.length then (.accepted, array)
  else if array.lengthWritable then
    match array.elements.lastFrom? (fun slot => !slot.isConfigurable) length with
    | some index => (.refused (.redefinition .length), array.cut (index + 1))
    | none => (.accepted, array.cut length)
  else (.refused (.readOnlyOf .length .array), array)

/-- Put a slot at an index, which the length covers from then on. -/
def place (array : ReferenceArray) (index : Nat) (slot : Slot) :
    Except Fault (Verdict × ReferenceArray) :=
  let elements := array.elements.insert index slot
  if index < array.length then .ok (.accepted, { array with elements })
  else if maxArrayLength ≤ index then .error (.range .arrayLength)
  else if array.lengthWritable then
    .ok (.accepted, { array with elements, length := index + 1 })
  else .ok (.refused (.readOnlyOf .length .array), array)

def lengthSlot (array : ReferenceArray) : Slot :=
  .described (.data (.number (.ofNat array.length)) ⟨array.lengthWritable, false, false⟩)

/-- Let `length` become read-only if a request wants it, after an assignment of the length. -/
def defineWritable (array : ReferenceArray) (resized : Verdict) (request : Request) :
    Verdict × ReferenceArray :=
  (if resized = .accepted ∧ (array.lengthWritable ∨ request.writable ≠ some true) then .accepted
    else .refused (.redefinition .length),
    { array with lengthWritable := array.lengthWritable && request.writable.getD true })

/-- Define the property `length`. -/
def defineLength (array : ReferenceArray) (request : Request) :
    Except Fault (Verdict × ReferenceArray) :=
  if request.configurable == some true || request.enumerable == some true ||
      request.isAccessor then
    .ok (.refused (.redefinition .length), array)
  else
    match request.value with
    | none => .ok (array.defineWritable .accepted request)
    | some value => (toArrayLength value).map fun length =>
        (array.setLength length).2.defineWritable (array.setLength length).1 request

def getOwn (array : ReferenceArray) (key : Key) : Option Slot :=
  match key with
  | .index i => array.elements.get? i.toNat
  | .named _ => if key.isLength then some array.lengthSlot else array.base.getOwn key

def add (array : ReferenceArray) (key : Key) (value : Value) :
    Except Fault (Verdict × ReferenceArray) :=
  match key with
  | .index i =>
    if array.base.extensible then array.place i.toNat (.bare value)
    else .ok (.refused (.notExtensible key), array)
  | .named _ => .ok ((array.base.add key value).map id fun base => { array with base })

def write (array : ReferenceArray) (key : Key) (value : Value) :
    Except Fault (Verdict × ReferenceArray) :=
  match key with
  | .index i =>
    match array.elements.get? i.toNat with
    | none => array.add key value
    | some slot =>
      match slot.write? value with
      | some written =>
        .ok (.accepted, { array with elements := array.elements.insert i.toNat written })
      | none => .ok (.refused (.readOnlyOf key .array), array)
  | .named _ =>
    if key.isLength then (toArrayLength value).map array.setLength
    else .ok ((array.base.write key value).map id fun base => { array with base })

def define (array : ReferenceArray) (key : Key) (request : Request) :
    Except Fault (Verdict × ReferenceArray) :=
  match key with
  | .index i =>
    match resolution key (array.elements.get? i.toNat) request array.base.extensible with
    | .error fault => .error fault
    | .ok (.stored slot) => array.place i.toNat slot
    | .ok (.refused why) => .ok (.refused why, array)
  | .named _ =>
    if key.isLength then array.defineLength request
    else (array.base.define key request).map (·.map id fun base => { array with base })

def delete (array : ReferenceArray) (key : Key) : Verdict × ReferenceArray :=
  match key with
  | .index i =>
    match array.elements.get? i.toNat with
    | none => (.accepted, array)
    | some slot =>
      if slot.isConfigurable then
        (.accepted, { array with elements := array.elements.erase i.toNat })
      else (.refused (.deletion key .array), array)
  | .named _ =>
    if key.isLength then (.refused (.deletion .length .array), array)
    else (array.base.delete key).map id fun base => { array with base }

def mutate (array : ReferenceArray) : OwnMutation → Except Fault (Verdict × ReferenceArray)
  | .write key value => array.write key value
  | .add key value => array.add key value
  | .define key request => array.define key request
  | .delete key => .ok (array.delete key)

/-- The own keys: the elements by ascending index, `length`, and the other keys. -/
def ownKeys (array : ReferenceArray) : List (Key × Bool) :=
  array.elements.entries.map (fun entry =>
      (Key.index (UInt32.ofNat entry.1), entry.2.isEnumerable)) ++
    (Key.length, false) :: array.base.ownKeys

end ReferenceArray

/-- A question to an array or a mutation of it. -/
inductive ArrayCall
  | getOwn (key : Key)
  | ownKeys
  | length
  | elementCount
  | isExtensible
  | own (mutation : OwnMutation) (strict : Bool)
  | setLength (length : UInt32) (strict : Bool)
  | preventExtensions

/-- What an array answers. -/
inductive ArrayAnswer
  | slot (found : Option Slot)
  | keys (keys : List (Key × Bool))
  | count (n : Nat)
  | flag (b : Bool)
  | done

def ArrayAnswer.ofMutation {σ : Type} (ended : Except Fault Bool × σ) :
    Except Fault ArrayAnswer × σ :=
  (ended.1.map .flag, ended.2)

def ArrayObject.answer (array : ArrayObject) : ArrayCall → Except Fault ArrayAnswer × ArrayObject
  | .getOwn key => (.ok (.slot (array.getOwn key)), array)
  | .ownKeys => (.ok (.keys array.ownKeys), array)
  | .length => (.ok (.count array.length), array)
  | .elementCount => (.ok (.count array.elementCount), array)
  | .isExtensible => (.ok (.flag array.base.extensible), array)
  | .own mutation strict => ArrayAnswer.ofMutation ((mutateOwn mutation strict).on array)
  | .setLength length strict =>
    ArrayAnswer.ofMutation ((assignLength length.toNat strict).on array)
  | .preventExtensions => (.ok .done, { array with base := array.base.preventExtensions })

def ReferenceArray.answer (array : ReferenceArray) :
    ArrayCall → Except Fault ArrayAnswer × ReferenceArray
  | .getOwn key => (.ok (.slot (array.getOwn key)), array)
  | .ownKeys => (.ok (.keys array.ownKeys), array)
  | .length => (.ok (.count array.length), array)
  | .elementCount => (.ok (.count array.elements.size), array)
  | .isExtensible => (.ok (.flag array.base.extensible), array)
  | .own mutation strict =>
    ArrayAnswer.ofMutation (Verdict.settle strict array (array.mutate mutation))
  | .setLength length strict =>
    ArrayAnswer.ofMutation (Verdict.settle strict array (.ok (array.setLength length.toNat)))
  | .preventExtensions => (.ok .done, { array with base := array.base.preventExtensions })

/-- The answers to calls one after another, and the state at the end. -/
def answers {σ : Type} (answer : σ → ArrayCall → Except Fault ArrayAnswer × σ) :
    σ → List ArrayCall → List (Except Fault ArrayAnswer) × σ
  | state, [] => ([], state)
  | state, call :: rest =>
    let (first, next) := answer state call
    let (others, final) := answers answer next rest
    (first :: others, final)

/-- How an array is made. -/
inductive ArrayOrigin
  | empty
  | ofValues (values : List Value)
  | ofLength (length : Nat)

def ArrayOrigin.build (prototype : Option ObjectId) (policy : Policy) :
    ArrayOrigin → Except Fault ArrayObject
  | .empty => .ok (.new prototype policy)
  | .ofValues values => ArrayObject.ofValues values prototype policy
  | .ofLength length => ArrayObject.ofLength length prototype policy

def ArrayOrigin.buildReference (prototype : Option ObjectId) :
    ArrayOrigin → Except Fault ReferenceArray
  | .empty => .ok (.new prototype)
  | .ofValues values =>
    if values.length ≤ maxArrayLength then
      .ok { ReferenceArray.new prototype with
        elements :=
          ⟨populated 0 (values.map fun value => some (.bare value)), ascending_populated 0 _⟩
        length := values.length }
    else .error (.range .arrayLength)
  | .ofLength length =>
    if length ≤ maxArrayLength then .ok { ReferenceArray.new prototype with length }
    else .error (.range .arrayLength)

end ObjectModel
