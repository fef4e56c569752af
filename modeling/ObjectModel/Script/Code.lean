import ObjectModel.Script.Basic
import ObjectModel.Heap.State

/-!
The native code of scripts.
-/

namespace ObjectModel.Script

structure Frame where
  this : Value
  args : List Value
  last : Value

/-- The value that later steps can refer to: the value or flag that a step answers. -/
def lastOf : Answer → Value
  | .value v => v
  | .flag b => .boolean b
  | .tried answer => lastOf answer
  | _ => .undefined

namespace Frame

def empty : Frame := ⟨.undefined, [], .undefined⟩

def after (frame : Frame) : Outcome → Frame
  | .ok answer => { frame with last := lastOf answer }
  | .error _ => frame

/-- The value of an operand; a missing argument is `undefined`. -/
def eval (frame : Frame) : Operand → Value
  | .value v => v
  | .this => frame.this
  | .argument index => frame.args.getD index .undefined
  | .last => frame.last

def target? (frame : Frame) : Target → Option ObjectId
  | .handle id => some id
  | .this => frame.this.object?
  | .last => frame.last.object?

def on {goal : Goal} (frame : Frame) (target : Target) (next : ObjectId → Code goal) : Code goal :=
  match frame.target? target with
  | some id => next id
  | none => .fail (.internal (.custom "not an object"))

def onLink {goal : Goal} (frame : Frame) (link : Option Target)
    (next : Option ObjectId → Code goal) : Code goal :=
  match link with
  | some target => frame.on target fun id => next (some id)
  | none => next none

def request (frame : Frame) : RequestForm → Request
  | .fields value get set writable enumerable configurable =>
    { value := value.map frame.eval
      get := get.map frame.eval
      set := set.map frame.eval
      writable, enumerable, configurable }
  | .data value attributes => .ofData (frame.eval value) attributes
  | .accessor get set enumerable configurable =>
    .ofAccessor (get.map frame.eval) (set.map frame.eval) enumerable configurable

def fault (frame : Frame) : Failure → Fault
  | .attributeViolation text => .attributeViolation (.custom text)
  | .typeMismatch text => .typeMismatch (.custom text)
  | .range text => .range (.custom text)
  | .internal text => .internal (.custom text)
  | .exception value => .thrown (frame.eval value)

def prototype {goal : Goal} (frame : Frame) (link : Link) (standard : ObjectId)
    (next : Option ObjectId → Code goal) : Code goal :=
  match link with
  | .standard => next (some standard)
  | .none => next none
  | .target target => frame.on target fun id => next (some id)

end Frame

def answer {reply : Reply} (command : Command reply) (form : reply.Result → Answer) :
    Code (.reply .answer) :=
  .ask command fun result => .give (form result)

def confirm (command : Command .nothing) : Code (.reply .answer) :=
  answer command fun _ => .flag true

/-- Look at an array; there is no answer for other objects. -/
def onArray (id : ObjectId) (form : ArrayObject → Answer) : Code (.reply .answer) :=
  answer (.inspectAlone id) fun object => (object.array?.map form).getD .notArray

/-- Put the index as the value at `count` indices; the answer counts the puts that were accepted. -/
def putRange (id : ObjectId) (stride : Nat) (strict : Bool) :
    (count index accepted : Nat) → Code (.reply .answer)
  | 0, _, accepted => .give (.count accepted)
  | count + 1, index, accepted =>
    .ask (.put id (.ofIndex (UInt32.ofNat index)) (.number (.ofNat index)) strict) fun done =>
      putRange id stride strict count (index + stride) (accepted + done.toNat)

/-- Move the element at a position down past those with greater numbers. -/
def sink {goal : Goal} (id : ObjectId) (next : Nat → Code goal) :
    (position swaps : Nat) → Code goal
  | 0, swaps => next swaps
  | position + 1, swaps =>
    let below := UInt32.ofNat position
    let here := UInt32.ofNat (position + 1)
    .ask (.elementAt id below) fun first =>
      .ask (.elementAt id here) fun second =>
        if first.toNumber.le second.toNumber then next swaps
        else .ask (.swap id below here) fun _ => sink id next position (swaps + 1)

def sortFrom (id : ObjectId) : (count position swaps : Nat) → Code (.reply .answer)
  | 0, _, swaps => .give (.count swaps)
  | count + 1, position, swaps => sink id (sortFrom id count (position + 1)) position swaps

def Operation.code (frame : Frame) : Operation → Code (.reply .answer)
  | .size => answer .size .size
  | .showHeap => answer .size fun size => .text (Heap.describe size)
  | .get target key => frame.on target fun id => answer (.get id key (.object id)) .value
  | .getFrom target key receiver =>
    frame.on target fun id => answer (.get id key (frame.eval receiver)) .value
  | .getOwn target key => frame.on target fun id => answer (.getOwn id key) .value
  | .describe target key => frame.on target fun id => answer (.describe id key) .descriptor
  | .put target key value strict =>
    frame.on target fun id => answer (.put id key (frame.eval value) strict) .flag
  | .putRange target start count stride strict =>
    frame.on target fun id => Script.putRange id stride strict count start 0
  | .define target key request strict =>
    frame.on target fun id => answer (.define id key (frame.request request) strict) .flag
  | .delete target key strict => frame.on target fun id => answer (.delete id key strict) .flag
  | .has target key => frame.on target fun id => answer (.has id key) .flag
  | .hasOwn target key => frame.on target fun id => answer (.hasOwn id key) .flag
  | .enumerate target all recursive =>
    frame.on target fun id => answer (.enumerate id all recursive) .keys
  | .isExtensible target => frame.on target fun id => answer (.isExtensible id) .flag
  | .preventExtensions target => frame.on target fun id => answer (.preventExtensions id) .flag
  | .prototype target =>
    frame.on target fun id =>
      answer (.prototype id) fun link => .value ((link.map Value.object).getD .null)
  | .setPrototype target link strict =>
    frame.on target fun id =>
      frame.onLink link fun prototype => answer (.setPrototype id prototype strict) .flag
  | .elementCount target => frame.on target fun id => answer (.elementCount id) .count
  | .elementAt target position =>
    frame.on target fun id => answer (.elementAt id position) .value
  | .swap target a b => frame.on target fun id => confirm (.swap id a b)
  | .sort target =>
    frame.on target fun id => .ask (.elementCount id) fun count => sortFrom id (count - 1) 1 0
  | .toTree value => answer (.toTree (frame.eval value)) .tree
  | .isCallable value => answer (.isCallable (frame.eval value)) .flag
  | .call function receiver args =>
    answer (.call (frame.eval function) (frame.eval receiver) (args.map frame.eval)) .value
  | .kind target =>
    frame.on target fun id =>
      answer (.inspect id) fun object => .kind object.kind false object.array?.isSome
  | .dump target => frame.on target fun id => answer (.inspect id) .object
  | .slot target key =>
    frame.on target fun id => answer (.inspectAlone id) fun object => .slot (object.getOwn key)
  | .writeOwn target key value strict =>
    frame.on target fun id => answer (.mutate id (.write key (frame.eval value)) strict) .flag
  | .addOwn target key value strict =>
    frame.on target fun id => answer (.mutate id (.add key (frame.eval value)) strict) .flag
  | .defineOwn target key request strict =>
    frame.on target fun id => answer (.mutate id (.define key (frame.request request)) strict) .flag
  | .deleteOwn target key strict =>
    frame.on target fun id => answer (.mutate id (.delete key) strict) .flag
  | .relink target link =>
    frame.on target fun id => frame.onLink link fun prototype => confirm (.relink id prototype)
  | .arrayState target => frame.on target fun id => onArray id .array
  | .arraySlot target index =>
    frame.on target fun id => onArray id fun array => .slot (array.element? index)
  | .arraySortSlot target position =>
    frame.on target fun id => onArray id fun array => .slot (array.sortSlot? position)
  | .resize target length strict =>
    frame.on target fun id =>
      answer (.resize id length strict) fun done => (done.map Answer.flag).getD .notArray
  | .edit name change => answer (.edit name change) .collection

def addAll (object : OrdinaryObject) : List (Key × Value) → Except Fault OrdinaryObject
  | [] => .ok object
  | (key, value) :: rest => do
    let (outcome, extended) := (OrdinaryObject.addOwn key value true).on object
    discard outcome
    addAll extended rest

def arrayCode (made : Except Fault ArrayObject) : Code .representation :=
  match made with
  | .ok array => .build (.array array)
  | .error fault => .fail fault

mutual

def Step.code (policy : Policy) : Step → Frame → Code (.reply .answer)
  | .operation operation, frame => operation.code frame
  | .new spec, frame =>
    (spec.code policy false frame).andThen fun representation =>
      answer (.allocate representation) fun id => .value (.object id)
  | .alloc spec, frame =>
    (spec.code policy true frame).andThen fun representation =>
      answer (.allocate representation) fun id => .value (.object id)
  | .replace target spec, frame =>
    frame.on target fun id =>
      (spec.code policy true frame).andThen fun representation =>
        confirm (.replace id representation)
  | .hold target exclusive steps, frame =>
    frame.on target fun held =>
      answer (.hold held exclusive (steps.collect policy frame [])) fun outcomes => outcomes
  | .attempt step, frame =>
    (step.code policy frame).attempt fun
      | .ok answer => .give (.tried answer)
      | .error fault => .give (.failed fault)

/-- Take all steps, whatever becomes of them, and answer with their outcomes. -/
def Steps.collect (policy : Policy) : Steps → Frame → List Outcome → Code (.reply .answer)
  | .nil, _, outcomes => .give (.outcomes outcomes.reverse)
  | .cons step rest, frame, outcomes =>
    (step.code policy frame).attempt fun outcome =>
      rest.collect policy (frame.after outcome) (outcome :: outcomes)

def Steps.follow {goal : Goal} (policy : Policy) :
    Steps → Frame → (Frame → Code goal) → Code goal
  | .nil, frame, next => next frame
  | .cons step rest, frame, next =>
    (step.code policy frame).attempt fun outcome =>
      .ask (.note outcome) fun _ =>
        match outcome with
        | .ok _ => rest.follow policy (frame.after outcome) next
        | .error fault => .fail fault

/-- The code that builds an object.  The heap's own constructors give standard prototypes to all but
ordinary objects, and no properties to these; a bare representation gets what is asked for. -/
def Spec.code (policy : Policy) : Spec → (bare : Bool) → Frame → Code .representation
  | .object link properties, bare, frame =>
    frame.prototype link Heap.objectPrototype fun prototype =>
      let properties := if bare then properties else []
      match addAll (.new prototype) (properties.map fun entry => (entry.1, frame.eval entry.2)) with
      | .ok object => .build (.ordinary object)
      | .error fault => .fail fault
  | .array link values, bare, frame =>
    frame.prototype (if bare then link else .standard) Heap.arrayPrototype fun prototype =>
      arrayCode (ArrayObject.ofValues (values.map frame.eval) prototype policy)
  | .arrayOfLength length, _, _ =>
    arrayCode (ArrayObject.ofLength length (some Heap.arrayPrototype) policy)
  | .string link value, bare, frame =>
    frame.prototype (if bare then link else .standard) Heap.stringPrototype fun prototype =>
      .build (.string (.new value prototype))
  | .function link name body, bare, frame =>
    frame.prototype (if bare then link else .standard) Heap.functionPrototype fun prototype =>
      .build (.function name (fun this args => body.code policy ⟨this, args, .undefined⟩)
        (.ofFunction name prototype))
  | .lazy steps failure spec, _, _ =>
    .build (.pending (steps.follow policy .empty fun frame =>
      match failure with
      | some failure => .fail (frame.fault failure)
      | none => spec.code policy true frame))
  | .collection link collection growable name, bare, frame =>
    let standard :=
      match collection with
      | .map _ => Heap.objectPrototype
      | .sequence _ => Heap.arrayPrototype
    frame.prototype (if bare then link else .standard) standard fun prototype =>
      .ask (.share collection name) fun source =>
        .build (.host ⟨source, growable, .new prototype⟩)

def Body.code (policy : Policy) : Body → Frame → Code (.reply .value)
  | .mk steps failure result, frame =>
    steps.follow policy frame fun frame =>
      match failure with
      | some failure => .fail (frame.fault failure)
      | none => .give (frame.eval result)

end

end ObjectModel.Script
