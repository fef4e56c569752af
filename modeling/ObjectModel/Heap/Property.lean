import ObjectModel.Heap.Access

/-!
Properties of objects in a heap: reading, writing and defining them along prototype chains.

A key is looked up on the object and then on its prototypes in order.  Accessors are called with the
object that the operation was started on.  At most as many objects are visited as the policy
allows.
-/

namespace ObjectModel

namespace Heap

def isCallable (engine : Engine) : Value → Action Bool
  | .object id => do
    match ← read engine id with
    | .function .. => return true
    | _ => return false
  | _ => return false

def call (engine : Engine) (function this : Value) (args : List Value) : Action Value := do
  let notFunction := throw (.typeMismatch (.notFunction function.display))
  match function with
  | .object id =>
    match ← read engine id with
    | .function name body _ =>
      modify (·.record (.call name this args))
      engine.run (body this args)
    | _ => notFunction
  | _ => notFunction

def resolve (engine : Engine) (slot : Slot) (receiver : Value) : Action Value :=
  match slot.descriptor with
  | .data value _ => return value
  | .accessor (some getter) _ _ => call engine getter receiver []
  | .accessor none _ _ => return .undefined

def callSetter (engine : Engine) (setter : Option Value) (key : Key) (receiver value : Value)
    (strict : Bool) : Action Bool :=
  match setter with
  | some setter => do
    discard (call engine setter receiver [value])
    return true
  | none => Action.reject strict (.getterOnly key)

def describeOwn (engine : Engine) (id : ObjectId) (key : Key) : Action (Option Descriptor) := do
  return ((← inspect engine id).getOwn key).map Slot.descriptor

def hasOwn (engine : Engine) (id : ObjectId) (key : Key) : Action Bool := do
  return ((← inspect engine id).getOwn key).isSome

def getOwn (engine : Engine) (id : ObjectId) (key : Key) : Action Value := do
  match (← inspect engine id).getOwn key with
  | some slot => resolve engine slot (.object id)
  | none => return .undefined

def prototypeOf (engine : Engine) (id : ObjectId) : Action (Option ObjectId) := do
  return (← inspect engine id).prototype

/-- The property at a key of the first of at most `depth` objects on a prototype chain that has
one. -/
def lookupWithin (engine : Engine) (key : Key) : (depth : Nat) → ObjectId → Action (Option Slot)
  | 0, _ => Action.failWith .chainTooDeep
  | depth + 1, id => do
    let object ← inspect engine id
    match object.getOwn key, object.prototype with
    | some slot, _ => return some slot
    | none, some next => lookupWithin engine key depth next
    | none, none => return none

def lookup (engine : Engine) (id : ObjectId) (key : Key) : Action (Option Slot) := do
  lookupWithin engine key (← get).policy.maxPrototypeDepth id

def has (engine : Engine) (id : ObjectId) (key : Key) : Action Bool := do
  return (← lookup engine id key).isSome

/-- The value of a property for a receiver.  The prototype link itself is the value of
`__proto__`, unless the object has an own property of that name. -/
def getFrom (engine : Engine) (id : ObjectId) (key : Key) (receiver : Value) : Action Value := do
  let linked ← if key.isProto then (!·) <$> hasOwn engine id key else pure false
  if linked then
    return ((← prototypeOf engine id).map Value.object).getD .null
  else
    match ← lookup engine id key with
    | some slot => resolve engine slot receiver
    | none => return .undefined

def get (engine : Engine) (id : ObjectId) (key : Key) : Action Value :=
  getFrom engine id key (.object id)

/-- Follow at most `depth` prototype links from `cursor`: `true` if they lead to `id`. -/
def leadsTo (engine : Engine) (id : ObjectId) :
    (depth : Nat) → (cursor : Option ObjectId) → Action Bool
  | _, none => return false
  | depth, some next => do
    if next = id then return true
    match depth with
    | 0 => Action.failWith .chainTooDeep
    | depth + 1 => leadsTo engine id depth (← prototypeOf engine next)

def relink (engine : Engine) (id : ObjectId) (prototype : Option ObjectId) : Action Unit :=
  amend engine id (modify (·.setPrototype prototype))

/-- Replace the prototype link of an extensible object, unless that would close a cycle. -/
def setPrototype (engine : Engine) (id : ObjectId) (prototype : Option ObjectId) (strict : Bool) :
    Action Bool := do
  let object ← inspect engine id
  if object.prototype = prototype then return true
  else if !object.isExtensible then Action.reject strict .fixedPrototype
  else if ← leadsTo engine id (← MonadState.get).policy.maxPrototypeDepth prototype then
    Action.reject strict .cyclicPrototype
  else
    relink engine id prototype
    return true

def putInherited (engine : Engine) (id : ObjectId) (key : Key) (value : Value) (strict : Bool) :
    Action Bool := do
  let inherited ←
    match ← prototypeOf engine id with
    | some next => lookup engine next key
    | none => pure none
  match inherited.map Slot.descriptor with
  | some (.accessor _ set _) => callSetter engine set key (.object id) value strict
  | some (.data _ attributes) =>
    if attributes.writable then amend engine id (Object.addOwn key value strict)
    else Action.reject strict (.readOnly key)
  | none => amend engine id (Object.addOwn key value strict)

/-- Write a property: a setter is called, an own value is overwritten, `__proto__` replaces the
prototype link, and what the prototypes do not forbid is added. -/
def put (engine : Engine) (id : ObjectId) (key : Key) (value : Value) (strict : Bool) :
    Action Bool := do
  match ((← inspect engine id).getOwn key).map Slot.descriptor with
  | some (.accessor _ set _) => callSetter engine set key (.object id) value strict
  | some (.data ..) => amend engine id (Object.writeOwn key value strict)
  | none =>
    if key.isProto then
      match value with
      | .object next => setPrototype engine id (some next) strict
      | .null => setPrototype engine id none strict
      | _ => return true
    else putInherited engine id key value strict

/-- Define an own property; a mixed request is a fault before the object is looked at. -/
def define (engine : Engine) (id : ObjectId) (key : Key) (request : Request) (strict : Bool) :
    Action Bool := do
  Action.ofExcept request.validate
  amend engine id (Object.defineOwn key request strict)

def delete (engine : Engine) (id : ObjectId) (key : Key) (strict : Bool) : Action Bool :=
  amend engine id (Object.deleteOwn key strict)

/-- The keys of a list that were not seen before, and what has been seen then.  Only enumerable
ones count as listed unless all do; the others are seen all the same. -/
def newKeys (all : Bool) : (seen : List Key) → List (Key × Bool) → List Key × List Key
  | seen, [] => ([], seen)
  | seen, (key, enumerable) :: rest =>
    if key ∈ seen then newKeys all seen rest
    else
      let (listed, seen) := newKeys all (key :: seen) rest
      (if enumerable || all then key :: listed else listed, seen)

def enumerateWithin (engine : Engine) (all recursive : Bool) :
    (depth : Nat) → (seen : List Key) → ObjectId → Action (List Key)
  | 0, _, _ => Action.failWith .chainTooDeep
  | depth + 1, seen, id => do
    let object ← inspect engine id
    let (listed, seen) := newKeys all seen object.ownKeys
    match if recursive then object.prototype else none with
    | some next => return listed ++ (← enumerateWithin engine all recursive depth seen next)
    | none => return listed

/-- The keys of an object and, if wanted, of its prototypes, each at its first holder. -/
def enumerate (engine : Engine) (id : ObjectId) (all recursive : Bool) : Action (List Key) := do
  enumerateWithin engine all recursive (← MonadState.get).policy.maxPrototypeDepth [] id

def isExtensible (engine : Engine) (id : ObjectId) : Action Bool := do
  return (← inspect engine id).isExtensible

def preventExtensions (engine : Engine) (id : ObjectId) : Action Bool := do
  amend engine id (modify Object.preventExtensions)
  return true

end Heap

end ObjectModel
