import ObjectModel.Heap.Export
import ObjectModel.Heap.Sort

/-!
Running native code on a heap.

A command is carried out by the operation of its name.  The operations run further native code, the
functions and factories that they meet, one level deeper; the depth bounds the levels.
-/

namespace ObjectModel

/-- Assign the length of an array; other objects have none to assign. -/
def Object.resizeOwn (length : Nat) (strict : Bool) : Mutation Object (Option Bool) := do
  match ← get with
  | .array inner => some <$> (ArrayObject.assignLength length strict).through .array inner
  | _ => return none

def Command.execute (engine : Engine) :
    {reply : Reply} → Command reply → Action reply.Result
  | _, .allocate representation => Heap.allocate representation
  | _, .size => return (← MonadState.get).size
  | _, .get id key receiver => Heap.getFrom engine id key receiver
  | _, .getOwn id key => Heap.getOwn engine id key
  | _, .describe id key => Heap.describeOwn engine id key
  | _, .put id key value strict => Heap.put engine id key value strict
  | _, .define id key request strict => Heap.define engine id key request strict
  | _, .delete id key strict => Heap.delete engine id key strict
  | _, .has id key => Heap.has engine id key
  | _, .hasOwn id key => Heap.hasOwn engine id key
  | _, .enumerate id all recursive => Heap.enumerate engine id all recursive
  | _, .isExtensible id => Heap.isExtensible engine id
  | _, .preventExtensions id => Heap.preventExtensions engine id
  | _, .prototype id => Heap.prototypeOf engine id
  | _, .setPrototype id link strict => Heap.setPrototype engine id link strict
  | _, .elementCount id => Heap.elementCount engine id
  | _, .elementAt id position => Heap.elementAt engine id position
  | _, .swap id a b => Heap.swap engine id a b
  | _, .toTree value => Heap.toTree engine value
  | _, .isCallable value => Heap.isCallable engine value
  | _, .call function this args => Heap.call engine function this args
  | _, .inspect id => Heap.inspect engine id
  | _, .inspectAlone id => Heap.inspectAlone engine id
  | _, .mutate id mutation strict => Heap.amend engine id (Object.mutateOwn mutation strict)
  | _, .relink id link => Heap.relink engine id link
  | _, .resize id length strict => Heap.amend engine id (Object.resizeOwn length strict)
  | _, .replace id representation => Heap.replace engine id representation
  | _, .share collection name => Heap.share collection name
  | _, .edit name change => Heap.edit name change
  | _, .hold id exclusive body => Heap.hold engine id exclusive body
  | _, .note outcome => modify (·.record (.step outcome))

def Code.runWith (execute : {reply : Reply} → Command reply → Action reply.Result) :
    {goal : Goal} → Code goal → Action goal.Result
  | _, .give result => return result
  | _, .build representation => return representation
  | _, .fail fault => throw fault
  | _, .perform command next => do
    let outcome ← Action.attempt (execute command)
    (next outcome).runWith execute

/-- The engine that runs native code at most `depth` levels deep. -/
def Engine.within : (depth : Nat) → Engine
  | 0 => ⟨0, fun _ => Action.exhausted⟩
  | depth + 1 => ⟨depth + 1, fun code => code.runWith (Command.execute (within depth))⟩

def Code.run {goal : Goal} (depth : Nat) (code : Code goal) : Action goal.Result :=
  code.runWith (Command.execute (.within depth))

end ObjectModel
