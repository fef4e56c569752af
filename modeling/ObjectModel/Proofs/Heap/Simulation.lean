import ObjectModel.Proofs.Heap.Discipline
import ObjectModel.Proofs.Heap.Eager

/-!
# Operations that simulate each other

Most operations on a heap look at objects and call functions, and go by what they find.  So whatever
way there is to compare an action with actions of other engines, if it can be followed from one
action to the next and if to look at objects and to call functions compares, these operations do.
-/

namespace ObjectModel

def Representation.array? : Representation → Option ArrayObject
  | .array inner => some inner
  | _ => none

def Representation.isFunction : Representation → Bool
  | .function .. => true
  | _ => false

/-- Whether a command looks at objects or calls functions, and changes nothing by itself. -/
def Command.looks : {reply : Reply} → Command reply → Bool
  | _, .get .. | _, .getOwn .. | _, .describe .. | _, .has .. | _, .hasOwn .. => true
  | _, .enumerate .. | _, .isExtensible _ | _, .prototype _ | _, .elementCount _ => true
  | _, .elementAt .. | _, .toTree _ | _, .isCallable _ | _, .call .. | _, .inspect _ => true
  | _, .inspectAlone _ => true
  | _, _ => false

def Command.amended? : {reply : Reply} → Command reply → Option ObjectId
  | _, .put id .. | _, .define id .. | _, .delete id .. | _, .preventExtensions id => some id
  | _, .setPrototype id .. | _, .swap id .. | _, .mutate id .. | _, .relink id _ => some id
  | _, .resize id .. => some id
  | _, _ => none

/-- Whether a command is given native code, by itself or in a representation. -/
def Command.carriesCode : {reply : Reply} → Command reply → Bool
  | _, .allocate _ => true
  | _, .replace .. => true
  | _, .hold .. => true
  | _, _ => false

theorem Command.carriesCode_of_amended? {reply : Reply} {command : Command reply} {id : ObjectId}
    (target : command.amended? = some id) : command.carriesCode = false := by
  cases command <;> cases target <;> rfl

/-- A way to compare an action with a family of actions that have results of the same type. -/
structure Simulation (ι : Type) where
  related : {α : Type} → Action α → (ι → Action α) → Prop
  /-- Whether bounds for the depth of calls are as good as one. -/
  enough : Nat → (ι → Nat) → Prop
  pure : ∀ {α : Type} (result : α), related (pure result) fun _ => pure result
  throw : ∀ {α : Type} (fault : Fault), related (throw fault : Action α) fun _ => throw fault
  bind : ∀ {α β : Type} {action : Action α} {family : ι → Action α} {next : α → Action β}
    {nextImage : ι → α → Action β}, related action family →
      (∀ result, related (next result) fun i => nextImage i result) →
        related (action >>= next) fun i => family i >>= nextImage i
  policy : related (Heap.policy <$> MonadState.get) fun _ => Heap.policy <$> MonadState.get
  exhausted : ∀ {α : Type} (family : ι → Action α), related Action.exhausted family
  /-- Bounds that are as good as one more leave something if one level is taken. -/
  descend : ∀ {depth : Nat} {depths : ι → Nat}, enough (depth + 1) depths →
    ∃ rest, enough depth rest ∧ ∀ {α : Type} {action : Action α} (family : ι → Nat → Action α),
      (related action fun i => family i (rest i + 1)) → related action fun i => family i (depths i)

/-- What the verdict on a command that a discipline permits makes of an object. -/
inductive Object.Becomes (discipline : Discipline) : Object → Object → Prop
  | mutated {object next : Object} {mutation : OwnMutation} {verdict : Verdict}
      (done : object.mutate mutation = .ok (verdict, next)) : Becomes discipline object next
  | linked (object : Object) (prototype : Option ObjectId) :
      Becomes discipline object (object.setPrototype prototype)
  | closed (object : Object) : Becomes discipline object object.preventExtensions
  | resized {object next : Object} {id : ObjectId} {length : Nat} {strict : Bool}
      {verdict : Option Verdict} (permitted : discipline.permits (.resize id length strict))
      (done : object.resize length = .ok (verdict, next)) : Becomes discipline object next
  | swapped {object next : Object} {a b : UInt32} {swapped : Bool}
      (done : Heap.exchangeStored a b object = .ok (swapped, next)) : Becomes discipline object next

namespace Simulation

variable {ι : Type} {simulation : Simulation ι} {α β γ : Type}

theorem map {action : Action α} {family : ι → Action α}
    (related : simulation.related action family) (f : α → β) :
    simulation.related (f <$> action) fun i => f <$> family i :=
  simulation.bind related fun result => simulation.pure (f result)

theorem bind_option {action : Action (Option α)} {family : ι → Action (Option α)}
    {next : Option α → Action β} {nextImage : ι → Option α → Action β}
    (related : simulation.related action family)
    (onSome : ∀ result, simulation.related (next (some result)) fun i => nextImage i (some result))
    (onNone : simulation.related (next none) fun i => nextImage i none) :
    simulation.related (action >>= next) fun i => family i >>= nextImage i := by
  apply simulation.bind related
  intro result
  cases result with
  | none => exact onNone
  | some result => exact onSome result

theorem ofExcept (outcome : Except Fault α) :
    simulation.related (Action.ofExcept outcome) fun _ => Action.ofExcept outcome := by
  cases outcome with
  | ok result => exact simulation.pure result
  | error fault => exact simulation.throw fault

theorem mapM {action : γ → Action α} {family : ι → γ → Action α}
    (related : ∀ item, simulation.related (action item) fun i => family i item) (items : List γ) :
    simulation.related (items.mapM action) fun i => items.mapM (family i) := by
  induction items with
  | nil => exact simulation.pure []
  | cons item rest inductionHypothesis =>
    simp only [List.mapM_cons]
    apply simulation.bind (related item)
    intro result
    apply simulation.bind inductionHypothesis
    intro results
    exact simulation.pure _

theorem collectFrom {action : Nat → Action α} {family : ι → Nat → Action α}
    (related : ∀ index, simulation.related (action index) fun i => family i index)
    (count index : Nat) (collected : List α) :
    simulation.related (Heap.collectFrom action count index collected) fun i =>
      Heap.collectFrom (family i) count index collected := by
  induction count generalizing index collected with
  | zero => exact simulation.pure _
  | succ count inductionHypothesis =>
    apply simulation.bind (related index)
    intro result
    exact inductionHypothesis (index + 1) (result :: collected)

theorem bind_policy {next : Policy → Action α} {nextImage : ι → Policy → Action α}
    (related : ∀ policy, simulation.related (next policy) fun i => nextImage i policy) :
    simulation.related (MonadState.get >>= fun heap : Heap => next heap.policy) fun i =>
      MonadState.get >>= fun heap : Heap => nextImage i heap.policy := by
  have both := simulation.bind simulation.policy related
  simp only [map_eq_pure_bind, bind_assoc, pure_bind] at both
  exact both

theorem report (strict : Bool) {action : Action Verdict} {family : ι → Action Verdict}
    (related : simulation.related action family) :
    simulation.related (action.report strict) fun i => (family i).report strict :=
  simulation.bind related fun _ => ofExcept _

/-- Whether to look at objects and to call functions compares for an engine and a family of
engines. -/
structure Serves (simulation : Simulation ι) (engine : Engine) (engines : ι → Engine) :
    Prop where
  depth : simulation.enough engine.depth fun i => (engines i).depth
  inspect : ∀ id, simulation.related (Heap.inspect engine id) fun i => Heap.inspect (engines i) id
  inspectAlone : ∀ id,
    simulation.related (Heap.inspectAlone engine id) fun i => Heap.inspectAlone (engines i) id
  array? : ∀ id, simulation.related (Representation.array? <$> Heap.read engine id) fun i =>
    Representation.array? <$> Heap.read (engines i) id
  isFunction : ∀ id,
    simulation.related (Representation.isFunction <$> Heap.read engine id) fun i =>
      Representation.isFunction <$> Heap.read (engines i) id
  call : ∀ function this args,
    simulation.related (Heap.call engine function this args) fun i =>
      Heap.call (engines i) function this args

namespace Serves

variable {engine : Engine} {engines : ι → Engine} (serves : simulation.Serves engine engines)

include serves

theorem prototypeOf (id : ObjectId) :
    simulation.related (Heap.prototypeOf engine id) fun i => Heap.prototypeOf (engines i) id :=
  simulation.bind (serves.inspect id) fun _ => simulation.pure _

theorem describeOwn (id : ObjectId) (key : Key) :
    simulation.related (Heap.describeOwn engine id key) fun i =>
      Heap.describeOwn (engines i) id key :=
  simulation.bind (serves.inspect id) fun _ => simulation.pure _

theorem hasOwn (id : ObjectId) (key : Key) :
    simulation.related (Heap.hasOwn engine id key) fun i => Heap.hasOwn (engines i) id key :=
  simulation.bind (serves.inspect id) fun _ => simulation.pure _

theorem isExtensible (id : ObjectId) :
    simulation.related (Heap.isExtensible engine id) fun i => Heap.isExtensible (engines i) id :=
  simulation.bind (serves.inspect id) fun _ => simulation.pure _

theorem isCallable (value : Value) :
    simulation.related (Heap.isCallable engine value) fun i =>
      Heap.isCallable (engines i) value := by
  cases value
  case object id =>
    have shown : ∀ engine, Heap.isCallable engine (.object id) =
        Representation.isFunction <$> Heap.read engine id := by
      intro engine
      rw [map_eq_pure_bind]
      apply bind_congr
      intro representation
      cases representation <;> rfl
    simp only [shown]
    exact serves.isFunction id
  all_goals exact simulation.pure _

theorem lookupWithin (key : Key) (depth : Nat) (id : ObjectId) :
    simulation.related (Heap.lookupWithin engine key depth id) fun i =>
      Heap.lookupWithin (engines i) key depth id := by
  induction depth generalizing id with
  | zero => exact simulation.throw _
  | succ depth inductionHypothesis =>
    apply simulation.bind (serves.inspect id)
    intro object
    cases object.getOwn key with
    | some slot => exact simulation.pure _
    | none =>
      cases object.prototype with
      | some next => exact inductionHypothesis next
      | none => exact simulation.pure _

theorem lookup (id : ObjectId) (key : Key) :
    simulation.related (Heap.lookup engine id key) fun i => Heap.lookup (engines i) id key :=
  bind_policy fun policy => serves.lookupWithin key policy.maxPrototypeDepth id

theorem has (id : ObjectId) (key : Key) :
    simulation.related (Heap.has engine id key) fun i => Heap.has (engines i) id key :=
  simulation.bind (serves.lookup id key) fun _ => simulation.pure _

theorem leadsTo (id : ObjectId) (depth : Nat) (cursor : Option ObjectId) :
    simulation.related (Heap.leadsTo engine id depth cursor) fun i =>
      Heap.leadsTo (engines i) id depth cursor := by
  induction depth generalizing cursor with
  | zero =>
    cases cursor with
    | none => exact simulation.pure _
    | some next =>
      unfold Heap.leadsTo
      split
      next => exact simulation.pure _
      next => exact simulation.throw _
  | succ depth inductionHypothesis =>
    cases cursor with
    | none => exact simulation.pure _
    | some next =>
      unfold Heap.leadsTo
      split
      next => exact simulation.pure _
      next => exact simulation.bind (serves.prototypeOf next) inductionHypothesis

theorem enumerateWithin (all recursive : Bool) (depth : Nat) (seen : List Key) (id : ObjectId) :
    simulation.related (Heap.enumerateWithin engine all recursive depth seen id) fun i =>
      Heap.enumerateWithin (engines i) all recursive depth seen id := by
  induction depth generalizing seen id with
  | zero => exact simulation.throw _
  | succ depth inductionHypothesis =>
    apply simulation.bind (serves.inspect id)
    intro object
    simp only
    cases (if recursive then object.prototype else none) with
    | some next => exact simulation.bind (inductionHypothesis _ next) fun _ => simulation.pure _
    | none => exact simulation.pure _

theorem enumerate (id : ObjectId) (all recursive : Bool) :
    simulation.related (Heap.enumerate engine id all recursive) fun i =>
      Heap.enumerate (engines i) id all recursive :=
  bind_policy fun policy => serves.enumerateWithin all recursive policy.maxPrototypeDepth [] id

theorem resolve (slot : Slot) (receiver : Value) :
    simulation.related (Heap.resolve engine slot receiver) fun i =>
      Heap.resolve (engines i) slot receiver := by
  unfold Heap.resolve
  split
  next => exact simulation.pure _
  next getter _ _ _ => exact serves.call getter receiver []
  next => exact simulation.pure _

theorem callSetter (setter : Option Value) (key : Key) (receiver value : Value) :
    simulation.related (Heap.judgeSetter engine setter key receiver value) fun i =>
      Heap.judgeSetter (engines i) setter key receiver value := by
  cases setter with
  | none => exact simulation.pure _
  | some setter =>
    exact simulation.bind (map (serves.call setter receiver [value]) _) fun _ => simulation.pure _

theorem getOwn (id : ObjectId) (key : Key) :
    simulation.related (Heap.getOwn engine id key) fun i => Heap.getOwn (engines i) id key := by
  apply simulation.bind (serves.inspect id)
  intro object
  cases object.getOwn key with
  | some slot => exact serves.resolve slot (.object id)
  | none => exact simulation.pure _

theorem getFrom (id : ObjectId) (key : Key) (receiver : Value) :
    simulation.related (Heap.getFrom engine id key receiver) fun i =>
      Heap.getFrom (engines i) id key receiver := by
  have looked := serves.lookup id key
  have resolved (slot : Slot) := serves.resolve slot receiver
  unfold Heap.getFrom
  split
  next =>
    apply simulation.bind (map (serves.hasOwn id key) _)
    intro isLinked
    cases isLinked
    case false => exact bind_option looked resolved (simulation.pure _)
    case true => exact simulation.bind (serves.prototypeOf id) fun _ => simulation.pure _
  next => exact bind_option looked resolved (simulation.pure _)

theorem get (id : ObjectId) (key : Key) :
    simulation.related (Heap.get engine id key) fun i => Heap.get (engines i) id key :=
  serves.getFrom id key (.object id)

theorem elementCount (id : ObjectId) :
    simulation.related (Heap.elementCount engine id) fun i =>
      Heap.elementCount (engines i) id := by
  have shown : ∀ engine, Heap.elementCount engine id =
      Representation.array? <$> Heap.read engine id >>= fun
        | some inner => Pure.pure inner.sortLength
        | none => do
          return (← Heap.get engine id .length).toNumber.clampToNat Heap.maxPositions := by
    intro engine
    rw [map_eq_pure_bind, bind_assoc]
    apply bind_congr
    intro representation
    cases representation <;> rfl
  simp only [shown]
  exact bind_option (serves.array? id) (fun _ => simulation.pure _)
    (simulation.bind (serves.get id .length) fun _ => simulation.pure _)

theorem elementAt (id : ObjectId) (position : UInt32) :
    simulation.related (Heap.elementAt engine id position) fun i =>
      Heap.elementAt (engines i) id position := by
  have shown : ∀ engine, Heap.elementAt engine id position =
      Representation.array? <$> Heap.read engine id >>= fun
        | some inner =>
          (inner.sortSlot? position.toNat).elim (Pure.pure .undefined) fun slot =>
            Heap.resolve engine slot (.object id)
        | none => Heap.get engine id (.ofIndex position) := by
    intro engine
    rw [map_eq_pure_bind, bind_assoc]
    apply bind_congr
    intro representation
    cases representation
    case array inner =>
      simp only [Representation.array?, pure_bind]
      cases inner.sortSlot? position.toNat <;> rfl
    all_goals rfl
  simp only [shown]
  apply bind_option (serves.array? id)
  · intro inner
    simp only
    cases inner.sortSlot? position.toNat with
    | some slot => exact serves.resolve slot (.object id)
    | none => exact simulation.pure _
  · exact serves.get id (.ofIndex position)

theorem exportWithin {depth : Nat} {depths : ι → Nat} (enough : simulation.enough depth depths)
    (path : List ObjectId) (value : Value) :
    simulation.related (Heap.exportWithin engine depth path value) fun i =>
      Heap.exportWithin (engines i) (depths i) path value := by
  induction depth generalizing depths path value with
  | zero =>
    cases value
    case object id => exact simulation.exhausted _
    all_goals simp only [Heap.exportWithin]; exact simulation.pure _
  | succ depth inductionHypothesis =>
    obtain ⟨rest, enoughRest, descended⟩ := simulation.descend enough
    cases value
    case object id =>
      apply descended fun i depth => Heap.exportWithin (engines i) depth path (.object id)
      simp only [Heap.exportWithin]
      split
      next => exact simulation.throw _
      next =>
        apply simulation.bind (serves.inspect id)
        intro object
        -- Ordinary objects and functions are exported by their enumerable properties.
        have entries : simulation.related
            (Heap.enumerate engine id false false >>= fun keys =>
              keys.mapM (fun key => do
                let item ← Heap.get engine id key
                return (key.display, ← Heap.exportWithin engine depth (id :: path) item)) >>=
              fun entries => Pure.pure (Tree.ofEntries entries))
            (fun i => Heap.enumerate (engines i) id false false >>= fun keys =>
              keys.mapM (fun key => do
                let item ← Heap.get (engines i) id key
                return (key.display,
                  ← Heap.exportWithin (engines i) (rest i) (id :: path) item)) >>=
              fun entries => Pure.pure (Tree.ofEntries entries)) := by
          apply simulation.bind (serves.enumerate id false false)
          intro keys
          refine simulation.bind (mapM ?_ keys) fun _ => simulation.pure _
          intro key
          apply simulation.bind (serves.get id key)
          intro item
          exact simulation.bind (inductionHypothesis enoughRest (id :: path) item) fun _ =>
            simulation.pure _
        cases object
        case array inner =>
          refine simulation.bind (collectFrom ?_ inner.length 0 []) fun _ => simulation.pure _
          intro index
          apply simulation.bind (serves.getOwn id (.ofIndex (UInt32.ofNat index)))
          intro item
          exact inductionHypothesis enoughRest (id :: path) item
        case ordinary => exact entries
        case function => exact entries
        all_goals exact simulation.pure _
    all_goals simp only [Heap.exportWithin]; exact simulation.pure _

theorem toTree (value : Value) :
    simulation.related (Heap.toTree engine value) fun i => Heap.toTree (engines i) value :=
  serves.exportWithin serves.depth [] value

theorem inherited (id : ObjectId) (key : Key) :
    simulation.related (Heap.inherited engine id key) fun i =>
      Heap.inherited (engines i) id key :=
  bind_option (serves.prototypeOf id) (fun next => serves.lookup next key) (simulation.pure none)

theorem setPrototype {id : ObjectId} {prototype : Option ObjectId}
    (relinks : simulation.related
      (Heap.judge engine id fun object => .ok ((), object.setPrototype prototype)) fun i =>
        Heap.judge (engines i) id fun object => .ok ((), object.setPrototype prototype)) :
    simulation.related (Heap.judgePrototype engine id prototype) fun i =>
      Heap.judgePrototype (engines i) id prototype := by
  have searched (depth : Nat) : simulation.related
      (do
        if ← Heap.leadsTo engine id depth prototype then
          return Verdict.refused .cyclicPrototype
        else
          Heap.judge engine id fun object => .ok ((), object.setPrototype prototype)
          return .accepted)
      (fun i => do
        if ← Heap.leadsTo (engines i) id depth prototype then
          return .refused .cyclicPrototype
        else
          Heap.judge (engines i) id fun object => .ok ((), object.setPrototype prototype)
          return .accepted) := by
    apply simulation.bind (serves.leadsTo id depth prototype)
    intro cyclic
    cases cyclic
    case true => exact simulation.pure _
    case false => exact simulation.bind relinks fun _ => simulation.pure _
  apply simulation.bind (serves.inspect id)
  intro object
  split
  next => exact simulation.pure _
  next =>
    split
    next => exact simulation.pure _
    next =>
      exact bind_policy fun policy => searched policy.maxPrototypeDepth

theorem swap {id : ObjectId} {a b : UInt32}
    (stores : simulation.related (Heap.judge engine id (Heap.exchangeStored a b)) fun i =>
      Heap.judge (engines i) id (Heap.exchangeStored a b))
    (puts : ∀ key value, simulation.related (Heap.judgePut engine id key value) fun i =>
      Heap.judgePut (engines i) id key value) :
    simulation.related (Heap.swap engine id a b) fun i => Heap.swap (engines i) id a b := by
  have putsStrictly : ∀ key value, simulation.related
      (discard ((Heap.judgePut engine id key value).report true))
      fun i => discard ((Heap.judgePut (engines i) id key value).report true) :=
    fun key value => map (report true (puts key value)) _
  simp only [Heap.swap_eq]
  apply simulation.bind stores
  intro swapped
  cases swapped
  case true => exact simulation.pure ()
  case false =>
    apply simulation.bind (serves.get id (.ofIndex a))
    intro first
    apply simulation.bind (serves.get id (.ofIndex b))
    intro second
    exact simulation.bind (putsStrictly (.ofIndex a) second) fun _ =>
      putsStrictly (.ofIndex b) first

theorem execute {reply : Reply} {command : Command reply} (looks : command.looks = true) :
    simulation.related (command.execute engine) fun i => command.execute (engines i) := by
  cases command
  case get id key receiver => exact serves.getFrom id key receiver
  case getOwn id key => exact serves.getOwn id key
  case describe id key => exact serves.describeOwn id key
  case has id key => exact serves.has id key
  case hasOwn id key => exact serves.hasOwn id key
  case enumerate id all recursive => exact serves.enumerate id all recursive
  case isExtensible id => exact serves.isExtensible id
  case prototype id => exact serves.prototypeOf id
  case elementCount id => exact serves.elementCount id
  case elementAt id position => exact serves.elementAt id position
  case toTree value => exact serves.toTree value
  case isCallable value => exact serves.isCallable value
  case call function this args => exact serves.call function this args
  case inspect id => exact serves.inspect id
  case inspectAlone id => exact serves.inspectAlone id
  all_goals cases looks

end Serves

/-- Whether to change the object under a handle, as a discipline permits it, compares as well. -/
structure AmendsAt (simulation : Simulation ι) (discipline : Discipline) (engine : Engine)
    (engines : ι → Engine) (id : ObjectId) : Prop extends simulation.Serves engine engines where
  amend : ∀ {α : Type} {change : Object → Except Fault (α × Object)},
    (∀ {object result next}, change object = .ok (result, next) →
      object.Becomes discipline next) →
        simulation.related (Heap.judge engine id change) fun i => Heap.judge (engines i) id change

namespace AmendsAt

variable {discipline : Discipline} {engine : Engine} {engines : ι → Engine} {id : ObjectId}
  (amends : simulation.AmendsAt discipline engine engines id)

include amends

theorem mutate (mutation : OwnMutation) :
    simulation.related (Heap.judge engine id (·.mutate mutation)) fun i =>
      Heap.judge (engines i) id (·.mutate mutation) :=
  amends.amend fun done => .mutated done

theorem relink (prototype : Option ObjectId) :
    simulation.related
      (Heap.judge engine id fun object => .ok ((), object.setPrototype prototype)) fun i =>
        Heap.judge (engines i) id fun object => .ok ((), object.setPrototype prototype) := by
  apply amends.amend
  intro object _ next done
  cases done
  exact .linked object prototype

theorem preventExtensions :
    simulation.related (Heap.preventExtensions engine id) fun i =>
      Heap.preventExtensions (engines i) id := by
  simp only [Heap.preventExtensions_eq]
  refine simulation.bind (amends.amend ?_) fun _ => simulation.pure _
  intro object _ next done
  cases done
  exact .closed object

theorem putInherited (key : Key) (value : Value) :
    simulation.related (Heap.judgeInherited engine id key value) fun i =>
      Heap.judgeInherited (engines i) id key value := by
  have added := amends.mutate (.add key value)
  apply simulation.bind (amends.inherited id key)
  intro found
  unfold Heap.judgeUnder
  split
  next set _ _ => exact amends.callSetter set key (.object id) value
  next =>
    split
    next => exact added
    next => exact simulation.pure _
  next => exact added

theorem put (key : Key) (value : Value) :
    simulation.related (Heap.judgePut engine id key value) fun i =>
      Heap.judgePut (engines i) id key value := by
  apply simulation.bind (amends.inspect id)
  intro object
  split
  next set _ _ => exact amends.callSetter set key (.object id) value
  next => exact amends.mutate (.write key value)
  next =>
    split
    next =>
      cases value
      case object next => exact amends.setPrototype (amends.relink _)
      case null => exact amends.setPrototype (amends.relink _)
      all_goals exact simulation.pure _
    next => exact amends.putInherited key value

theorem execute {reply : Reply} {command : Command reply} (targets : command.amended? = some id)
    (permitted : discipline.permits command) :
    simulation.related (command.execute engine) fun i => command.execute (engines i) := by
  cases command <;> cases targets
  case put key value strict =>
    simp only [Command.execute_put]
    exact report strict (amends.put key value)
  case define key request strict =>
    have defined := amends.mutate (.define key request)
    simp only [Command.execute_define]
    exact report strict (simulation.bind (ofExcept request.validate) fun _ => defined)
  case delete key strict =>
    simp only [Command.execute_delete]
    exact report strict (amends.mutate (.delete key))
  case preventExtensions => exact amends.preventExtensions
  case setPrototype prototype strict =>
    simp only [Command.execute_setPrototype]
    exact report strict (amends.setPrototype (amends.relink prototype))
  case swap a b => exact amends.toServes.swap (amends.amend fun done => .swapped done) amends.put
  case mutate mutation strict =>
    simp only [Command.execute_mutate]
    exact report strict (amends.mutate mutation)
  case relink prototype =>
    simp only [Command.execute_relink]
    exact amends.relink prototype
  case resize length strict =>
    simp only [Command.execute_resize]
    exact bind_option (amends.amend fun done => .resized permitted done)
      (fun verdict => map (ofExcept (verdict.report strict)) _) (simulation.pure none)

end AmendsAt

/-- Whether to change objects, as a discipline permits it, and what the heap shares and records
compares as well. -/
structure Amends (simulation : Simulation ι) (discipline : Discipline) (engine : Engine)
    (engines : ι → Engine) : Prop extends simulation.Serves engine engines where
  amend : ∀ {α : Type} id {change : Object → Except Fault (α × Object)},
    (∀ {object result next}, change object = .ok (result, next) →
      object.Becomes discipline next) →
        simulation.related (Heap.judge engine id change) fun i => Heap.judge (engines i) id change
  size : simulation.related (Heap.size <$> MonadState.get) fun _ => Heap.size <$> MonadState.get
  share : ∀ collection name,
    simulation.related (Heap.share collection name) fun _ => Heap.share collection name
  edit : ∀ name edit, simulation.related (Heap.edit name edit) fun _ => Heap.edit name edit
  note : ∀ outcome, simulation.related (modify (·.record (.step outcome)) : Action PUnit) fun _ =>
    (modify (·.record (.step outcome)) : Action PUnit)

namespace Amends

variable {discipline : Discipline} {engine : Engine} {engines : ι → Engine}
  (amends : simulation.Amends discipline engine engines)

include amends

theorem amendsAt (id : ObjectId) : simulation.AmendsAt discipline engine engines id where
  toServes := amends.toServes
  amend := amends.amend id

theorem mutate (id : ObjectId) (mutation : OwnMutation) :
    simulation.related (Heap.judge engine id (·.mutate mutation)) fun i =>
      Heap.judge (engines i) id (·.mutate mutation) :=
  (amends.amendsAt id).mutate mutation

theorem relink (id : ObjectId) (prototype : Option ObjectId) :
    simulation.related
      (Heap.judge engine id fun object => .ok ((), object.setPrototype prototype)) fun i =>
        Heap.judge (engines i) id fun object => .ok ((), object.setPrototype prototype) :=
  (amends.amendsAt id).relink prototype

theorem execute {reply : Reply} {command : Command reply} (codeless : command.carriesCode = false)
    (permitted : discipline.permits command) :
    simulation.related (command.execute engine) fun i => command.execute (engines i) := by
  cases target : command.amended? with
  | some id => exact (amends.amendsAt id).execute target permitted
  | none =>
    cases command
    case size => exact amends.size
    case share collection name => exact amends.share collection name
    case edit name edit => exact amends.edit name edit
    case note outcome => exact amends.note outcome
    case allocate => cases codeless
    case replace => cases codeless
    case hold => cases codeless
    all_goals first | exact amends.toServes.execute rfl | cases target

end Amends

end Simulation

end ObjectModel
