import ObjectModel.Fault
import ObjectModel.Property.Slot

/-!
Definition requests and how they merge into an existing property.

A request names some fields of a property; the others keep their state.  A property that is not
configurable has to be left as it is, but for the value of a writable one.  What is to be stored is
put together step by step: the attributes, the value, the functions.
-/

namespace ObjectModel

/-- A request to define a property; fields that are not named keep their state. -/
structure Request where
  value : Option Value := none
  get : Option Value := none
  set : Option Value := none
  writable : Option Bool := none
  enumerable : Option Bool := none
  configurable : Option Bool := none
  deriving DecidableEq

/-- A function field: `undefined` stands for no function. -/
def functionOf (value : Value) : Option Value :=
  match value with
  | .undefined => none
  | other => some other

def sameFunction : Option Value → Option Value → Bool
  | none, none => true
  | some first, some second => first.same second
  | _, _ => false

namespace Request

def ofData (value : Value) (attributes : Attributes) : Request where
  value := some value
  writable := some attributes.writable
  enumerable := some attributes.enumerable
  configurable := some attributes.configurable

def ofAccessor (get set : Option Value) (enumerable configurable : Bool) : Request where
  get := some (get.getD .undefined)
  set := some (set.getD .undefined)
  enumerable := some enumerable
  configurable := some configurable

def ofDescriptor : Descriptor → Request
  | .data value attributes => ofData value attributes
  | .accessor get set attributes =>
    ofAccessor get set attributes.enumerable attributes.configurable

def isData (request : Request) : Bool := request.value.isSome || request.writable.isSome

def isAccessor (request : Request) : Bool := request.get.isSome || request.set.isSome

def isMixed (request : Request) : Bool := request.isData && request.isAccessor

def validate (request : Request) : Except Fault Unit :=
  if request.isMixed then .error (.typeMismatch .mixedRequest) else .ok ()

def isDefaultData (request : Request) : Bool :=
  request.value.isSome && !request.isAccessor && request.writable == some true &&
    request.enumerable == some true && request.configurable == some true

/-- Whether the request changes what is fixed about the value or the functions of a property that
is not configurable. -/
def violates (request : Request) : Descriptor → Bool
  | .data value attributes =>
    request.isAccessor ||
      !attributes.writable && (request.writable == some true ||
        request.value.any fun named => !named.same value)
  | .accessor get set _ =>
    request.isData || (request.get.any fun named => !sameFunction (functionOf named) get) ||
      request.set.any fun named => !sameFunction (functionOf named) set

end Request

structure Draft where
  value : Option Value
  get : Option Value
  set : Option Value
  isAccessor : Bool
  attributes : Attributes

namespace Draft

def ofCurrent : Option Descriptor → Draft
  | none => ⟨none, none, none, false, .locked⟩
  | some (.data value attributes) => ⟨some value, none, none, false, attributes⟩
  | some (.accessor get set attributes) => ⟨none, get, set, true, attributes⟩

def nameAttributes (draft : Draft) (request : Request) : Draft :=
  let old := draft.attributes
  { draft with
    attributes :=
      { writable := request.writable.getD old.writable
        enumerable := request.enumerable.getD old.enumerable
        configurable := request.configurable.getD old.configurable } }

def nameValue (draft : Draft) (request : Request) : Draft :=
  if request.isData then
    { draft with
      value := request.value.or draft.value
      get := none
      set := none
      isAccessor := false }
  else draft

/-- Take the functions from a request that names one; a value that becomes an accessor is not
writable. -/
def nameFunctions (draft : Draft) (request : Request) : Draft :=
  if request.isAccessor then
    { value := none
      get := request.get.elim draft.get functionOf
      set := request.set.elim draft.set functionOf
      isAccessor := true
      attributes :=
        if draft.isAccessor then draft.attributes
        else { draft.attributes with writable := false } }
  else draft

def descriptor (draft : Draft) : Descriptor :=
  if draft.isAccessor then .accessor draft.get draft.set draft.attributes
  else .data (draft.value.getD .undefined) draft.attributes

end Draft

def Request.merge (request : Request) (current : Option Descriptor) : Option Slot :=
  if request.isDefaultData then request.value.map .bare
  else
    let draft := ((Draft.ofCurrent current).nameAttributes request).nameValue request
    some (.ofDescriptor (draft.nameFunctions request).descriptor)

/-- Merge a request into a property that may exist, of an object that may be extensible: what is to
be stored, or nothing if the request is refused. -/
def reconcile (key : Key) (existing : Option Slot) (request : Request) (extensible strict : Bool) :
    Except Fault (Option Slot) := do
  let refuse := fun why => do
    discard (reject strict why)
    return none
  request.validate
  match existing with
  | none => if extensible then return request.merge none else refuse (.notDefinable key)
  | some slot =>
    let current := slot.descriptor
    if current.isConfigurable then return request.merge current
    else if request.configurable == some true then refuse (.redefinition key)
    else if request.enumerable.any (· != current.isEnumerable) then refuse (.redefinition key)
    else if request.violates current then refuse (.redefinition key)
    else return request.merge current

end ObjectModel
