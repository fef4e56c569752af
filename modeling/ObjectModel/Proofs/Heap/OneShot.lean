import ObjectModel.Proofs.Heap.Lifecycle

/-!
# Lazy objects are constructed once

The first operation on a lazy object enters its factory and then runs on what the factory builds.
While the factory runs the handle is spent, and if it fails the handle stays so: every operation on
a spent handle is an internal fault, which changes nothing.
-/

namespace ObjectModel

namespace Command

/-- The object that a command is performed on. -/
def target? : {reply : Reply} → Command reply → Option ObjectId
  | _, .get id .. => some id
  | _, .getOwn id _ => some id
  | _, .describe id _ => some id
  | _, .put id .. => some id
  | _, .define id .. => some id
  | _, .delete id .. => some id
  | _, .has id _ => some id
  | _, .hasOwn id _ => some id
  | _, .enumerate id .. => some id
  | _, .isExtensible id => some id
  | _, .preventExtensions id => some id
  | _, .prototype id => some id
  | _, .setPrototype id .. => some id
  | _, .elementCount id => some id
  | _, .elementAt id _ => some id
  | _, .swap id .. => some id
  | _, .toTree (.object id) => some id
  | _, .isCallable (.object id) => some id
  | _, .call (.object id) .. => some id
  | _, .inspect id => some id
  | _, .inspectAlone id => some id
  | _, .mutate id .. => some id
  | _, .relink id _ => some id
  | _, .resize id .. => some id
  | _, .replace id _ => some id
  | _, .hold id .. => some id
  | _, _ => none

def isMixed : {reply : Reply} → Command reply → Bool
  | _, .define _ _ request _ => request.isMixed
  | _, _ => false

/-- Whether a command begins with a walk along the prototypes. -/
def walks : {reply : Reply} → Command reply → Bool
  | _, .get _ key _ => !key.isProto
  | _, .has .. => true
  | _, .enumerate .. => true
  | _, _ => false

/-- Whether a command gets to the object that it is performed on: its request is not mixed, and its
walk may visit the object. -/
structure Opens (policy : Policy) (id : ObjectId) {reply : Reply} (command : Command reply) :
    Prop where
  target : command.target? = some id
  proper : command.isMixed = false
  allowed : command.walks = true → 0 < policy.maxPrototypeDepth

end Command

namespace Heap

variable {heap : Heap} {engine : Engine} {id : ObjectId}

namespace Constructs

theorem define {key : Key} {request : Request} {strict : Bool}
    (proper : request.isMixed = false) :
    Constructs engine id heap (define engine id key request strict) := by
  have valid : request.validate = .ok () := if_neg (Bool.eq_false_iff.mp proper)
  unfold Heap.define
  rw [valid]
  exact amend _

theorem toTree (deep : 0 < engine.depth) :
    Constructs engine id heap (toTree engine (.object id)) := by
  unfold Heap.toTree
  cases depth : engine.depth with
  | zero =>
    rw [depth] at deep
    cases deep
  | succ depth => exact inspect.bind _

section Walking

variable (samePolicy : ∀ after, (construct engine id).on heap = some (.ok (), after) →
  after.policy = heap.policy)

include samePolicy

theorem of_walk {α : Type} (walk : Nat → Action α) (allowed : 0 < heap.policy.maxPrototypeDepth)
    (constructs : ∀ depth, Constructs engine id heap (walk (depth + 1))) :
    Constructs engine id heap
      (MonadState.get >>= fun heap => walk heap.policy.maxPrototypeDepth) := by
  apply of_get
  · cases bound : heap.policy.maxPrototypeDepth with
    | zero =>
      rw [bound] at allowed
      cases allowed
    | succ depth => exact constructs depth
  · intro after constructing
    rw [samePolicy after constructing]

theorem lookup (key : Key) (allowed : 0 < heap.policy.maxPrototypeDepth) :
    Constructs engine id heap (lookup engine id key) :=
  of_walk samePolicy (lookupWithin engine key · id) allowed fun _ => inspect.bind _

theorem enumerate (all recursive : Bool) (allowed : 0 < heap.policy.maxPrototypeDepth) :
    Constructs engine id heap (enumerate engine id all recursive) :=
  of_walk samePolicy (enumerateWithin engine all recursive · [] id) allowed fun _ => inspect.bind _

theorem getFrom {key : Key} (receiver : Value)
    (allowed : key.isProto = false → 0 < heap.policy.maxPrototypeDepth) :
    Constructs engine id heap (getFrom engine id key receiver) := by
  unfold Heap.getFrom
  split
  next => exact ((inspect.bind _).map _).bind _
  next other => exact (lookup samePolicy key (allowed (Bool.eq_false_iff.mpr other))).bind _

end Walking

end Constructs

/-- A command begins with the construction of the object that it gets to. -/
theorem constructs_execute (deep : 0 < engine.depth) {reply : Reply} {command : Command reply}
    (opens : command.Opens heap.policy id)
    (samePolicy : ∀ after, (construct engine id).on heap = some (.ok (), after) →
      after.policy = heap.policy) :
    Constructs engine id heap (command.execute engine) := by
  obtain ⟨target, proper, allowed⟩ := opens
  have looked : Constructs engine id heap (inspect engine id) := .inspect
  have seen : Constructs engine id heap (read engine id) := .read
  cases command
  case get target key receiver =>
    cases target
    refine .getFrom samePolicy receiver fun other => allowed ?_
    exact congrArg not other
  case define target key request strict =>
    cases target
    exact .define proper
  case has target key =>
    cases target
    exact (Constructs.lookup samePolicy key (allowed rfl)).bind _
  case enumerate target all recursive =>
    cases target
    exact .enumerate samePolicy all recursive (allowed rfl)
  case toTree value =>
    cases value
    case object =>
      cases target
      exact .toTree deep
    all_goals cases target
  case isCallable value =>
    cases value
    case object =>
      cases target
      exact seen.bind _
    all_goals cases target
  case call function this args =>
    cases function
    case object =>
      cases target
      exact seen.bind _
    all_goals cases target
  case getOwn =>
    cases target
    exact looked.bind _
  case describe =>
    cases target
    exact looked.bind _
  case put target key value strict =>
    cases target
    exact looked.bind _
  case delete target key strict =>
    cases target
    exact .amend _
  case hasOwn =>
    cases target
    exact looked.bind _
  case isExtensible =>
    cases target
    exact looked.bind _
  case preventExtensions =>
    cases target
    exact (Constructs.amend _).bind _
  case prototype =>
    cases target
    exact looked.bind _
  case setPrototype target prototype strict =>
    cases target
    exact looked.bind _
  case elementCount =>
    cases target
    exact seen.bind _
  case elementAt =>
    cases target
    exact seen.bind _
  case swap =>
    cases target
    exact (Constructs.amend _).bind _
  case inspect =>
    cases target
    exact looked
  case inspectAlone =>
    cases target
    exact .inspectAlone
  case mutate target mutation strict =>
    cases target
    exact .amend _
  case relink target prototype =>
    cases target
    exact Constructs.relink prototype
  case resize target length strict =>
    cases target
    exact Constructs.amend (Object.resizeOwn length strict)
  case replace =>
    cases target
    exact .of_construct heap _
  case hold =>
    cases target
    exact .of_construct heap _
  all_goals cases target

theorem execute_mixed {reply : Reply} {command : Command reply} (mixed : command.isMixed = true) :
    (command.execute engine).on heap = some (.error (.typeMismatch .mixedRequest), heap) := by
  cases command
  case define target key request strict =>
    have invalid : request.validate = .error (.typeMismatch .mixedRequest) := if_pos mixed
    change (define engine target key request strict).on heap = _
    unfold define
    rw [invalid]
    rfl
  all_goals cases mixed

theorem execute_of_walks {reply : Reply} {command : Command reply} (walks : command.walks = true)
    (bound : heap.policy.maxPrototypeDepth = 0) :
    (command.execute engine).on heap = some (.error (.internal .chainTooDeep), heap) := by
  have looked (id : ObjectId) (key : Key) :
      (lookup engine id key).on heap = some (.error (.internal .chainTooDeep), heap) := by
    unfold lookup
    rw [Action.on_bind_ok (Action.on_get heap), bound]
    rfl
  cases command
  case get id key receiver =>
    have other : key.isProto = false := by
      rw [← Bool.not_eq_true']
      exact walks
    change (getFrom engine id key receiver).on heap = _
    unfold getFrom
    rw [other]
    exact Action.on_bind_error (looked id key) _
  case has id key => exact Action.on_bind_error (looked id key) _
  case enumerate id all recursive =>
    change (enumerate engine id all recursive).on heap = _
    unfold enumerate
    rw [Action.on_bind_ok (Action.on_get heap), bound]
    rfl
  all_goals cases walks

/-- Every command on a spent object is an internal fault, and changes nothing. -/
theorem execute_spent (deep : 0 < engine.depth) (spent : heap.cell? id = some (.new .spent))
    {reply : Reply} {command : Command reply} (target : command.target? = some id)
    (proper : command.isMixed = false) :
    ∃ why, (command.execute engine).on heap = some (.error (.internal why), heap) := by
  by_cases stuck : command.walks = true ∧ heap.policy.maxPrototypeDepth = 0
  · exact ⟨_, execute_of_walks stuck.1 stuck.2⟩
  · refine ⟨_, (constructs_execute deep ⟨target, proper, ?_⟩ ?_).on_spent spent⟩
    · intro walks
      exact Nat.pos_of_ne_zero fun bound => stuck ⟨walks, bound⟩
    · intro after constructing
      rw [on_construct_spent spent] at constructing
      cases constructing

theorem isLazy_of_on_read {representation : Representation} {after : Heap}
    (ran : (read engine id).on heap = some (.ok representation, after)) :
    representation.isLazy = false := by
  have begins : Constructs engine id heap (read engine id) := .read
  rw [begins, Action.on_bind] at ran
  rcases constructing : (construct engine id).on heap with _ | ⟨_ | _, between⟩
  case some.ok =>
    have constructed := constructed_of_on_construct constructing
    rw [constructing] at ran
    have looking := (constructed.ready.on_read engine).symm.trans ran
    obtain ⟨found, looked, eager⟩ := constructed
    rw [looked] at looking
    cases looking
    exact eager
  all_goals
    rw [constructing] at ran
    cases ran

section Steady

variable {depth : Nat} {after : Heap} {factory : Code .representation} (steady : heap.Steady)

include steady

theorem policy_of_on_construct {outcome : Except Fault Unit}
    (constructing : (construct (.within depth) id).on heap = some (outcome, after)) :
    after.policy = heap.policy := by
  have follows := Engine.Respects.follows (respects_within_steadying depth)
  have carried :=
    bears_steadying.carries_construct follows id heap steady outcome after constructing
  exact carried.2.2.1

theorem constructs_of_opens (deep : 0 < (Engine.within depth).depth) {reply : Reply}
    {command : Command reply} (opens : command.Opens heap.policy id) :
    Constructs (.within depth) id heap (command.execute (.within depth)) :=
  constructs_execute deep opens fun _ constructing => policy_of_on_construct steady constructing

variable (pending : heap.cell? id = some (.new (.pending factory)))

include pending

/-- However the factory ends, it has run at some depth, and its handle is spent. -/
theorem of_on_factory {outcome : Except Fault Representation}
    (ran : ((Engine.within depth).run factory).on (heap.entered id) = some (outcome, after)) :
    0 < (Engine.within depth).depth ∧ after.Steady ∧ after.cell? id = some (.new .spent) ∧
      after.policy = heap.policy := by
  have reached := respects_within_steadying depth factory factory.obeys_free (heap.entered id)
    (steady.entered pending) outcome after ran
  have spent : (heap.entered id).cell? id = some (.new .spent) := by
    rw [cell?_entered pending, if_pos rfl]
  refine ⟨?_, reached.1, (reached.2.2 id spent).1, reached.2.1⟩
  cases depth with
  | zero => cases ran
  | succ depth => exact Nat.succ_pos depth

end Steady

/-- What holds of a handle of a heap, whether it is that of a lazy object or not.

Each factory that is entered under it in the course of a run is taken from it, and gives way to what
it builds.  While the factory runs, and ever after if it fails, commands on the handle are internal
faults; if it succeeds, the command that came first runs on what it has built. -/
structure OneShot (heap : Heap) (id : ObjectId) : Prop where
  lives : ∀ {depth goal} {code : Code goal} {outcome after},
    (code.run depth).on heap = some (outcome, after) → Lives id true heap after
  -- Guarded runs put no other lazy object under the handle, so nothing there is replaced.
  spared : ∀ {depth goal} {code : Code goal} {outcome after},
    (code.runGuarded (Command.spares id) depth).on heap = some (outcome, after) →
      (code.run depth).on heap = some (outcome, after) ∧ Lives id false heap after
  settles : ∀ {depth goal} {code : Code goal} {outcome after},
    (code.run depth).on heap = some (outcome, after) →
      after.Steady ∧ (heap.cell? id = some (.new .spent) →
        after.cell? id = some (.new .spent) ∧ after.entries id = heap.entries id)
  enters : ∀ {factory}, heap.cell? id = some (.new (.pending factory)) →
    (heap.entered id).Steady ∧ (heap.entered id).cell? id = some (.new .spent) ∧
      (heap.entered id).entries id = heap.entries id + 1
  refuses : heap.cell? id = some (.new .spent) → ∀ {depth reply} {command : Command reply},
    command.target? = some id → command.isMixed = false →
      ∃ why, (command.execute (.within (depth + 1))).on heap = some (.error (.internal why), heap)
  mixed : ∀ {depth reply} {command : Command reply}, command.isMixed = true →
    (command.execute (.within depth)).on heap = some (.error (.typeMismatch .mixedRequest), heap)
  fails : ∀ {factory}, heap.cell? id = some (.new (.pending factory)) → ∀ {depth fault after},
    ((Engine.within depth).run factory).on (heap.entered id) = some (.error fault, after) →
      after.Steady ∧ after.cell? id = some (.new .spent) ∧
      (construct (.within depth) id).on heap = some (.error fault, after) ∧
      ∀ {reply} {command : Command reply}, command.Opens heap.policy id →
        (command.execute (.within depth)).on heap = some (.error fault, after)
  succeeds : ∀ {factory}, heap.cell? id = some (.new (.pending factory)) →
    ∀ {depth built after},
    ((Engine.within depth).run factory).on (heap.entered id) = some (.ok built, after) →
      after.cell? id = some (.new .spent) ∧ (after.setCell id (.new built)).Steady ∧
      (∀ {ended}, (construct (.within depth) id).on heap = some ended →
        (construct (.within depth) id).on (after.setCell id (.new built)) = some ended) ∧
      ∀ {reply} {command : Command reply}, command.Opens heap.policy id →
        (∀ {ended}, (command.execute (.within depth)).on heap = some ended →
          (command.execute (.within depth)).on (after.setCell id (.new built)) = some ended) ∧
        (built.isLazy = false → (command.execute (.within depth)).on heap =
          (command.execute (.within depth)).on (after.setCell id (.new built)))
  -- Whatever looks at a representation or changes it constructs the object first.
  constructs : ∀ {depth after}, (construct (.within depth) id).on heap = some (.ok (), after) →
    after.Constructed id
  reads : ∀ {depth representation after},
    (read (.within depth) id).on heap = some (.ok representation, after) →
      representation.isLazy = false

/-- New heaps are steady, and of every steady heap all handles are such. -/
theorem lazy_objects_one_shot :
    (∀ policy, (new policy).Steady) ∧ ∀ {heap : Heap}, heap.Steady → ∀ id, heap.OneShot id := by
  refine ⟨Steady.new, fun {heap} steady id => ?_⟩
  constructor
  case lives =>
    intro depth goal code outcome after ran
    exact (Regime.keeps_run (fun {_} follows {_} command _ => carries_living follows command) depth
      code.obeys_free heap steady outcome after ran).2.2
  case spared =>
    intro depth goal code outcome after ran
    obtain ⟨ranPlain, _, _, lives⟩ :=
      Regime.carries_runGuarded (fun {_ _} follows {_} command _ => carries_sparing follows command)
        depth code.obeys_free heap steady outcome after ran
    exact ⟨ranPlain, lives⟩
  case settles =>
    intro depth goal code outcome after ran
    obtain ⟨steadyAfter, settling⟩ := keeps_run_steadying depth code heap steady outcome after ran
    exact ⟨steadyAfter, settling.2 id⟩
  case enters =>
    intro factory pending
    refine ⟨steady.entered pending, ?_, ?_⟩
    · rw [cell?_entered pending, if_pos rfl]
    · rw [entries_entered, if_pos rfl]
  case refuses =>
    intro spent depth reply command target proper
    exact execute_spent (Nat.succ_pos depth) spent target proper
  case mixed => exact execute_mixed
  case fails =>
    intro factory pending depth fault after ran
    obtain ⟨deep, steadyAfter, spent, _⟩ := of_on_factory steady pending ran
    refine ⟨steadyAfter, spent, on_construct_error pending ran, ?_⟩
    intro reply command opens
    exact (constructs_of_opens steady deep opens).on_error pending ran
  case succeeds =>
    intro factory pending depth built after ran
    obtain ⟨deep, steadyAfter, spent, policy⟩ := of_on_factory steady pending ran
    have steadyBuilt : (after.setCell id (.new built)).Steady :=
      steadyAfter.setCell spent fun _ => rfl
    refine ⟨spent, steadyBuilt, on_construct_built pending ran spent, ?_⟩
    intro reply command opens
    have constructs := constructs_of_opens steady deep opens
    rw [← policy] at opens
    refine ⟨?_, constructs.on_once pending ran spent deep⟩
    intro ended executed
    exact constructs.on_built pending ran spent executed
      (constructs_of_opens steadyBuilt deep opens)
  case constructs => exact constructed_of_on_construct
  case reads => exact isLazy_of_on_read

/-- A factory that asks for the object that it is to build. -/
def curious : Code .representation :=
  .perform (.isExtensible ⟨0⟩) fun _ => .build (.ordinary (.new none))

def curiousHeap : Heap where
  cells := #[.new (.pending curious)]
  policy := {}
  collections := #[]
  names := []
  log := []

theorem curiousHeap_steady : curiousHeap.Steady := by
  rintro ⟨_ | index⟩ cell found _ <;> cases found
  rfl

theorem lazy_objects_one_shot_curiousHeap :
    (∃ why, ((Command.isExtensible ⟨0⟩).execute (.within 1)).on (curiousHeap.entered ⟨0⟩) =
      some (.error (.internal why), curiousHeap.entered ⟨0⟩)) ∧
    ∃ after, ((Command.isExtensible ⟨0⟩).execute (.within 1)).on curiousHeap =
        some (.ok true, after) ∧
      after.cell? ⟨0⟩ = some (.new (.ordinary (.new none))) ∧ after.entries ⟨0⟩ = 1 := by
  obtain ⟨_, oneShot⟩ := lazy_objects_one_shot
  have pending : curiousHeap.cell? ⟨0⟩ = some (.new (.pending curious)) := rfl
  obtain ⟨steady, spent, entries⟩ := (oneShot curiousHeap_steady ⟨0⟩).enters pending
  have ran : ((Engine.within 1).run curious).on (curiousHeap.entered ⟨0⟩) =
      some (.ok (.ordinary (.new none)), curiousHeap.entered ⟨0⟩) := rfl
  have opens : (Command.isExtensible ⟨0⟩).Opens curiousHeap.policy ⟨0⟩ := ⟨rfl, rfl, nofun⟩
  obtain ⟨_, _, _, runs⟩ := (oneShot curiousHeap_steady ⟨0⟩).succeeds pending ran
  refine ⟨(oneShot steady ⟨0⟩).refuses spent rfl rfl, _, (runs opens).2 rfl, rfl, entries⟩

end Heap

end ObjectModel
