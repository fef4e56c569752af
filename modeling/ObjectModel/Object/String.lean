import ObjectModel.Object.Ordinary

/-!
String objects: a text whose units are enumerable, read-only properties, with a hidden read-only
`length` and further properties like an ordinary object.
-/

namespace ObjectModel

structure StringObject where
  value : Text
  base : OrdinaryObject

namespace StringObject

def new (value : Text) (prototype : Option ObjectId) : StringObject := ⟨value, .new prototype⟩

/-- The property that the text itself has at a key. -/
def fixed? (string : StringObject) (key : Key) : Option Slot :=
  match key with
  | .index i => (string.value.charAt? i.toNat).map fun unit => .fixed (.text unit) true
  | .named _ =>
    if key.isLength then some (.fixed (.number (.ofNat string.value.length)) false) else none

def getOwn (string : StringObject) (key : Key) : Option Slot :=
  (string.fixed? key).or (string.base.getOwn key)

def onBase (mutation : Mutation OrdinaryObject Bool) : Mutation StringObject Bool := do
  let string ← get
  mutation.through (fun base => { string with base }) string.base

def writeOwn (key : Key) (value : Value) (strict : Bool) : Mutation StringObject Bool := do
  if ((← get).fixed? key).isSome then Mutation.reject strict (.readOnlyOf key .string)
  else onBase (OrdinaryObject.writeOwn key value strict)

def addOwn (key : Key) (value : Value) (strict : Bool) : Mutation StringObject Bool := do
  if ((← get).fixed? key).isSome then Mutation.reject strict (.readOnlyOf key .string)
  else onBase (OrdinaryObject.addOwn key value strict)

/-- Define a property as requested; of the properties of the text only what changes nothing is
accepted. -/
def defineOwn (key : Key) (request : Request) (strict : Bool) : Mutation StringObject Bool := do
  match (← get).fixed? key with
  | some slot => return (← Mutation.ofExcept (reconcile key slot request true strict)).isSome
  | none => onBase (OrdinaryObject.defineOwn key request strict)

def deleteOwn (key : Key) (strict : Bool) : Mutation StringObject Bool := do
  if ((← get).fixed? key).isSome then Mutation.reject strict (.deletion key .string)
  else onBase (OrdinaryObject.deleteOwn key strict)

def ownKeys (string : StringObject) : List (Key × Bool) :=
  (List.range string.value.length).map (fun i => (Key.index (UInt32.ofNat i), true)) ++
    (Key.length, false) :: string.base.ownKeys

end StringObject

end ObjectModel
