import ObjectModel.Host.Collection
import ObjectModel.Object.Array
import ObjectModel.Object.String

/-!
Objects with own properties, whatever represents them.

All kinds of objects answer the same questions and undergo the same mutations of their own
properties.  Prototype walks, calls of accessors and delayed construction are not their business.
-/

namespace ObjectModel

inductive ObjectKind
  | ordinary
  | array
  | string
  | host
  | function
  deriving DecidableEq, Repr

/-- An object as a collection of own properties. -/
inductive Object
  | ordinary (object : OrdinaryObject)
  | array (array : ArrayObject)
  | string (string : StringObject)
  | map {keyType : KeyType} {elementType : ElementType} (view : HostMap keyType elementType)
  | sequence {elementType : ElementType} (view : HostSequence elementType)
  | function (base : OrdinaryObject)

inductive OwnMutation
  | write (key : Key) (value : Value)
  | add (key : Key) (value : Value)
  | define (key : Key) (request : Request)
  | delete (key : Key)
  deriving DecidableEq

namespace Object

def kind : Object → ObjectKind
  | .ordinary _ => .ordinary
  | .array _ => .array
  | .string _ => .string
  | .map _ | .sequence _ => .host
  | .function _ => .function

def className : Object → String
  | .ordinary _ | .map _ => "Object"
  | .array _ | .sequence _ => "Array"
  | .string _ => "String"
  | .function _ => "Function"

def array? : Object → Option ArrayObject
  | .array inner => some inner
  | _ => none

/-- The store of the properties that are not special to the kind of the object. -/
def base : Object → OrdinaryObject
  | .ordinary inner => inner
  | .array inner => inner.base
  | .string inner => inner.base
  | .map inner => inner.base
  | .sequence inner => inner.base
  | .function inner => inner

def withBase (object : Object) (base : OrdinaryObject) : Object :=
  match object with
  | .ordinary _ => .ordinary base
  | .array inner => .array { inner with base }
  | .string inner => .string { inner with base }
  | .map inner => .map { inner with base }
  | .sequence inner => .sequence { inner with base }
  | .function _ => .function base

def getOwn : Object → Key → Option Slot
  | .ordinary inner, key => inner.getOwn key
  | .array inner, key => inner.getOwn key
  | .string inner, key => inner.getOwn key
  | .map inner, key => inner.getOwn key
  | .sequence inner, key => inner.getOwn key
  | .function inner, key => inner.getOwn key

def writeOwn (key : Key) (value : Value) (strict : Bool) : Mutation Object Bool := do
  match ← get with
  | .ordinary inner => (OrdinaryObject.writeOwn key value strict).through .ordinary inner
  | .array inner => (ArrayObject.writeOwn key value strict).through .array inner
  | .string inner => (StringObject.writeOwn key value strict).through .string inner
  | .map inner => (HostMap.writeOwn key value strict).through .map inner
  | .sequence inner => (HostSequence.writeOwn key value strict).through .sequence inner
  | .function inner => (OrdinaryObject.writeOwn key value strict).through .function inner

def addOwn (key : Key) (value : Value) (strict : Bool) : Mutation Object Bool := do
  match ← get with
  | .ordinary inner => (OrdinaryObject.addOwn key value strict).through .ordinary inner
  | .array inner => (ArrayObject.addOwn key value strict).through .array inner
  | .string inner => (StringObject.addOwn key value strict).through .string inner
  | .map inner => (HostMap.addOwn key value strict).through .map inner
  | .sequence inner => (HostSequence.addOwn key value strict).through .sequence inner
  | .function inner => (OrdinaryObject.addOwn key value strict).through .function inner

def defineOwn (key : Key) (request : Request) (strict : Bool) : Mutation Object Bool := do
  match ← get with
  | .ordinary inner => (OrdinaryObject.defineOwn key request strict).through .ordinary inner
  | .array inner => (ArrayObject.defineOwn key request strict).through .array inner
  | .string inner => (StringObject.defineOwn key request strict).through .string inner
  | .map inner => (HostMap.defineOwn key request strict).through .map inner
  | .sequence inner => (HostSequence.defineOwn key request strict).through .sequence inner
  | .function inner => (OrdinaryObject.defineOwn key request strict).through .function inner

def deleteOwn (key : Key) (strict : Bool) : Mutation Object Bool := do
  match ← get with
  | .ordinary inner => (OrdinaryObject.deleteOwn key strict).through .ordinary inner
  | .array inner => (ArrayObject.deleteOwn key strict).through .array inner
  | .string inner => (StringObject.deleteOwn key strict).through .string inner
  | .map inner => (HostMap.deleteOwn key strict).through .map inner
  | .sequence inner => (HostSequence.deleteOwn key strict).through .sequence inner
  | .function inner => (OrdinaryObject.deleteOwn key strict).through .function inner

def mutateOwn (mutation : OwnMutation) (strict : Bool) : Mutation Object Bool :=
  match mutation with
  | .write key value => writeOwn key value strict
  | .add key value => addOwn key value strict
  | .define key request => defineOwn key request strict
  | .delete key => deleteOwn key strict

def ownKeys : Object → List (Key × Bool)
  | .ordinary inner => inner.ownKeys
  | .array inner => inner.ownKeys
  | .string inner => inner.ownKeys
  | .map inner => inner.ownKeys
  | .sequence inner => inner.ownKeys
  | .function inner => inner.ownKeys

def properties (object : Object) : List (Key × Bool × Option Slot) :=
  object.ownKeys.map fun entry => (entry.1, entry.2, object.getOwn entry.1)

def prototype (object : Object) : Option ObjectId := object.base.prototype

def setPrototype (object : Object) (prototype : Option ObjectId) : Object :=
  object.withBase (object.base.setPrototype prototype)

def isExtensible : Object → Bool
  | .map inner => inner.growable
  | object => object.base.extensible

/-- Allow no new properties; a host collection keeps its size from then on. -/
def preventExtensions : Object → Object
  | .map inner => .map { inner with growable := false, base := inner.base.preventExtensions }
  | .sequence inner =>
    .sequence { inner with resizable := false, base := inner.base.preventExtensions }
  | object => object.withBase object.base.preventExtensions

def isGrowable : Object → Bool
  | .map inner => inner.growable
  | .sequence inner => inner.resizable
  | _ => false

end Object

end ObjectModel
