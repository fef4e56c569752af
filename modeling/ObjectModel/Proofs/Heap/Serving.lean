import ObjectModel.Proofs.Heap.Construction
import ObjectModel.Proofs.Heap.Discipline
import ObjectModel.Proofs.Heap.Simulation

/-!
# Operations that construct and call

Most operations on a heap read objects, which may construct them, and call functions, and change
nothing otherwise.  They are within a regime if constructing and calling is.
-/

namespace ObjectModel

namespace Regime

/-- Whether to construct objects and to call functions is within a regime for an engine, and the
same for another one. -/
structure Serves (regime : Regime) (watched plain : Engine) : Prop where
  depth : watched.depth = plain.depth
  construct : ∀ id, regime.Carries (Heap.construct watched id) (Heap.construct plain id)
  call : ∀ function this args,
    regime.Carries (Heap.call watched function this args) (Heap.call plain function this args)

variable {regime : Regime} {watched plain : Engine}

theorem Keeps.cellOf (id : ObjectId) : regime.Keeps (Heap.cellOf id) :=
  .of_on _ fun heap _ => Heap.on_cellOf heap id

theorem Keeps.viewOf (representation : Representation) :
    regime.Keeps (Heap.viewOf representation) :=
  .of_on _ fun heap _ => Heap.on_viewOf heap representation

theorem Carries.constructWithin {id : ObjectId}
    (enters : regime.Carries (Heap.enterFactory watched id) (Heap.enterFactory plain id))
    (bound : Nat) : regime.Carries (Heap.constructWithin watched id bound)
      (Heap.constructWithin plain id bound) := by
  induction bound with
  | zero =>
    apply enters.bind
    intro entered
    cases entered
    case true => exact Keeps.exhausted.carries
    case false => exact .pure ()
  | succ bound inductionHypothesis =>
    apply enters.bind
    intro entered
    cases entered
    case true => exact inductionHypothesis
    case false => exact .pure ()

/-- A call of an object that is not lazy is recorded, and runs the code that the object has. -/
theorem CarriesFrom.call {discipline : Discipline} {heap : Heap} (safe : regime.safe heap)
    (follows : watched.Follows plain discipline regime) {id : ObjectId} (ready : heap.Ready id)
    (runs : ∀ cell, heap.cell? id = some cell → cell.value.Runs discipline) {this : Value}
    {args : List Value}
    (recorded : ∀ name, regime.Keeps (modify (·.record (.call name this args)) : Action PUnit)) :
    regime.CarriesFrom heap (Heap.call watched (.object id) this args)
      (Heap.call plain (.object id) this args) := by
  apply CarriesFrom.bind_reading safe (ready.on_read watched) (ready.on_read plain)
  intro representation looked
  cases representation
  case function name body base =>
    obtain ⟨cell, found, value⟩ := Heap.cell?_of_look looked
    have obeys := runs cell found
    rw [value] at obeys
    exact (recorded name).carries.bind (fun _ => follows.run (body this args) (obeys this args))
      heap safe
  all_goals exact (Keeps.throw _).carries heap safe

/-- A mutation of an object that is not lazy stores the mutated object, or changes nothing. -/
theorem CarriesFrom.amend {α : Type} {heap : Heap} (safe : regime.safe heap) {id : ObjectId}
    (ready : heap.Ready id) {change : Object → Except Fault (α × Object)}
    (reaches : ∀ {cell object}, heap.grasp id = .ok (cell, object) → ∀ {result next},
      change object = .ok (result, next) → regime.Reaches heap (heap.store id cell next)) :
    regime.CarriesFrom heap (Heap.judge watched id change) (Heap.judge plain id change) := by
  have ran := ready.on_judge watched change
  have ranPlain := (ready.on_judge plain change).trans ran.symm
  cases grasped : heap.grasp id with
  | error fault =>
    rw [grasped] at ran
    exact .of_on ran ranPlain (.refl safe)
  | ok held =>
    obtain ⟨cell, object⟩ := held
    rw [grasped] at ran
    cases changed : change object with
    | error fault =>
      simp only [changed] at ran
      exact .of_on ran ranPlain (.refl safe)
    | ok result =>
      simp only [changed] at ran
      exact .of_on ran ranPlain (reaches grasped changed)

theorem CarriesFrom.construct_bind {α : Type} {heap : Heap} {id : ObjectId}
    {next nextPlain : Action α}
    (carries : regime.CarriesFrom heap (Heap.construct watched id) (Heap.construct plain id))
    (carriesNext : ∀ after, regime.Reaches heap after → after.Constructed id →
      regime.CarriesFrom after next nextPlain) :
    regime.CarriesFrom heap (Heap.construct watched id >>= fun _ => next)
      (Heap.construct plain id >>= fun _ => nextPlain) := by
  intro outcome last ran
  rw [Action.on_bind] at ran
  cases constructing : (Heap.construct watched id).on heap with
  | none =>
    rw [constructing] at ran
    cases ran
  | some ended =>
    obtain ⟨result, after⟩ := ended
    obtain ⟨constructingPlain, reached⟩ := carries result after constructing
    rw [constructing] at ran
    cases result with
    | error fault =>
      cases ran
      exact ⟨Action.on_bind_error constructingPlain _, reached⟩
    | ok _ =>
      have constructed := Heap.constructed_of_on_construct constructing
      obtain ⟨ranPlain, reachedLast⟩ := carriesNext after reached constructed outcome last ran
      exact ⟨(Action.on_bind_ok constructingPlain _).trans ranPlain, reached.trans reachedLast⟩

theorem Carries.construct_bind {α : Type} {id : ObjectId} {next nextPlain : Action α}
    (carries : regime.Carries (Heap.construct watched id) (Heap.construct plain id))
    (carriesNext : ∀ heap, regime.safe heap → heap.Constructed id →
      regime.CarriesFrom heap next nextPlain) :
    regime.Carries (Heap.construct watched id >>= fun _ => next)
      (Heap.construct plain id >>= fun _ => nextPlain) :=
  fun heap safe => (carries heap safe).construct_bind fun after reached constructed =>
    carriesNext after reached.1 constructed

theorem Carries.hold {form : Reply} {id : ObjectId} {exclusive : Bool} {body : Code (.reply form)}
    (constructs : regime.Carries (Heap.construct watched id) (Heap.construct plain id))
    (runs : regime.Carries (watched.run body) (plain.run body))
    (borrowed : ∀ {heap}, regime.safe heap → ∀ {cell}, heap.cell? id = some cell → ∀ borrow,
      (cell.value.isLazy = true → cell.borrow = .free → borrow = .free) →
        regime.Reaches heap (heap.setCell id { cell with borrow })) :
    regime.Carries (Heap.hold watched id exclusive body) (Heap.hold plain id exclusive body) := by
  have released : ∀ outcome : Except Fault form.Result,
      regime.Keeps (Heap.cellOf id >>= fun cell =>
        (modify (·.setCell id cell.release) : Action PUnit) >>= fun _ =>
          Action.ofExcept outcome) := by
    intro outcome heap safe
    refine Action.Ensures.bind_reading (Heap.on_cellOf heap id) ?_ fun _ _ => .refl safe
    intro cell held
    obtain ⟨borrow, same, free⟩ := cell.exists_release_eq
    have reached := borrowed safe (Heap.cell?_of_held held) borrow fun _ => free
    rw [← same] at reached
    exact .of_on rfl reached
  apply constructs.construct_bind
  intro heap safe constructed
  apply CarriesFrom.bind_reading safe (Heap.on_cellOf heap id) (Heap.on_cellOf heap id)
  intro cell held
  apply CarriesFrom.bind_reading safe (Action.on_ofExcept _ heap) (Action.on_ofExcept _ heap)
  intro taken taking
  have reached : regime.Reaches heap (heap.setCell id taken) := by
    obtain ⟨borrow, same⟩ : ∃ borrow, taken = { cell with borrow } := by
      split at taking
      next => exact ObjectCell.exists_of_borrowExclusive taking
      next => exact ObjectCell.exists_of_borrowShared taking
    have found := Heap.cell?_of_held held
    rw [same]
    refine borrowed safe found borrow fun lazy => ?_
    rw [constructed.ready cell found] at lazy
    cases lazy
  have stored : regime.CarriesFrom heap (modify (·.setCell id taken) : Action PUnit)
      (modify (·.setCell id taken) : Action PUnit) := .of_on (Action.on_modify _ heap) rfl reached
  apply stored.bind
  intro _
  exact runs.attempt.bind fun outcome => (released outcome).carries

theorem Keeps.share (collection : Collection) (name : Option String)
    (shared : ∀ {heap}, regime.safe heap → ∀ names, regime.Reaches heap
      { heap with collections := heap.collections.push collection, names }) :
    regime.Keeps (Heap.share collection name) := by
  intro heap safe
  have ran : (Heap.share collection name).on heap =
      some (.ok ⟨heap.collections.size⟩,
        { heap with
          collections := heap.collections.push collection
          names := (name.map fun name => (name, ⟨heap.collections.size⟩)).toList ++
            heap.names }) := rfl
  exact .of_on ran (shared safe _)

theorem CarriesFrom.edit {heap : Heap} (safe : regime.safe heap) (name : String)
    (edit : CollectionEdit)
    (edited : ∀ {source collection}, heap.named? name = some source →
      heap.collection? source = some collection →
        regime.Reaches heap (heap.setCollection source (collection.edit edit))) :
    regime.CarriesFrom heap (Heap.edit name edit) (Heap.edit name edit) := by
  unfold Heap.edit
  apply CarriesFrom.bind_reading safe (Action.on_get heap) (Action.on_get heap)
  rintro _ ⟨⟩
  cases named : heap.named? name with
  | none => exact Carries.pure _ heap safe
  | some source =>
    have edited : regime.Reaches heap
        (((heap.collection? source).map (·.edit edit)).elim heap (heap.setCollection source)) := by
      cases found : heap.collection? source with
      | none => exact .refl safe
      | some collection => exact edited named found
    exact .of_on rfl rfl edited

theorem Keeps.edit (name : String) (edit : CollectionEdit)
    (edited : ∀ {heap}, regime.safe heap → ∀ {source collection},
      heap.collection? source = some collection →
        regime.Reaches heap (heap.setCollection source (collection.edit edit))) :
    regime.Keeps (Heap.edit name edit) := by
  have carries : regime.Carries (Heap.edit name edit) (Heap.edit name edit) := fun _ safe =>
    .edit safe name edit fun _ found => edited safe found
  exact carries.keeps

theorem Carries.report (strict : Bool) {action actionPlain : Action Verdict}
    (carries : regime.Carries action actionPlain) :
    regime.Carries (action.report strict) (actionPlain.report strict) :=
  carries.bind fun _ => (Keeps.ofExcept _).carries

theorem Carries.resize {id : ObjectId} {length : Nat} (strict : Bool)
    (carries : regime.Carries (Heap.judge watched id (Object.resize length))
      (Heap.judge plain id (Object.resize length))) :
    regime.Carries ((Command.resize id length strict).execute watched)
      ((Command.resize id length strict).execute plain) := by
  rw [Command.execute_resize, Command.execute_resize]
  exact carries.bind_option
    (fun verdict => (Keeps.ofExcept (verdict.report strict)).carries.map _) (.pure none)

/-- To be within a regime and to stand in for another action is followed from one action to the
next. -/
def simulation (regime : Regime) : Simulation Unit where
  related watched plain := regime.Carries watched (plain ())
  enough depth depths := depth = depths ()
  pure := Carries.pure
  throw fault := (Keeps.throw fault).carries
  bind carries carriesNext := carries.bind carriesNext
  policy := Keeps.get.carries.map Heap.policy
  exhausted _ := by
    intro heap safe outcome after ran
    cases ran
  descend := by
    intro depth depths same
    refine ⟨fun _ => depth, rfl, fun family carries => ?_⟩
    simp only [← same]
    exact carries

namespace Serves

variable (serves : regime.Serves watched plain)

include serves

theorem carries_read (id : ObjectId) :
    regime.Carries (Heap.read watched id) (Heap.read plain id) := by
  apply (serves.construct id).bind
  intro _
  exact ((Keeps.cellOf id).bind fun _ => .ofExcept _).carries

theorem carries_inspectAlone (id : ObjectId) :
    regime.Carries (Heap.inspectAlone watched id) (Heap.inspectAlone plain id) := by
  apply (serves.construct id).bind
  intro _
  apply Keeps.carries
  apply (Keeps.cellOf id).bind
  intro cell
  exact (Keeps.ofExcept cell.readForWriting).bind fun representation => .viewOf representation

theorem along {holds : Heap → Prop} (lasts : ∀ {before after}, regime.leadsTo before after →
    holds before → holds after) : (regime.along holds).Serves watched plain where
  depth := serves.depth
  construct id := (serves.construct id).along lasts
  call function this args := (serves.call function this args).along lasts

/-- What looks at objects and calls functions is carried as soon as constructing and calling is. -/
theorem simulated : regime.simulation.Serves watched fun _ => plain where
  depth := serves.depth
  inspect id := (serves.carries_read id).bind fun representation =>
    (Keeps.viewOf representation).carries
  inspectAlone := serves.carries_inspectAlone
  array? id := (serves.carries_read id).map _
  isFunction id := (serves.carries_read id).map _
  call := serves.call

theorem carries_callSetter (setter : Option Value) (key : Key) (receiver value : Value) :
    regime.Carries (Heap.judgeSetter watched setter key receiver value)
      (Heap.judgeSetter plain setter key receiver value) :=
  serves.simulated.callSetter setter key receiver value

theorem carriesFrom_judgeUnder {heap : Heap} (safe : regime.safe heap) {id : ObjectId} {key : Key}
    {value : Value}
    (added : regime.CarriesFrom heap (Heap.judge watched id (·.add key value))
      (Heap.judge plain id (·.add key value))) (found : Option Slot) :
    regime.CarriesFrom heap (Heap.judgeUnder watched id key value found)
      (Heap.judgeUnder plain id key value found) := by
  unfold Heap.judgeUnder
  split
  next get set attributes _ =>
    exact serves.carries_callSetter set key (.object id) value heap safe
  next =>
    split
    next => exact added
    next => exact Carries.pure _ heap safe
  next => exact added

/-- A put to an object that is not lazy: what is found there decides which operation it comes to. -/
theorem carriesFrom_put {heap : Heap} (safe : regime.safe heap) {id : ObjectId}
    (ready : heap.Ready id) {key : Key} {value : Value}
    (written : regime.CarriesFrom heap (Heap.judge watched id (·.write key value))
      (Heap.judge plain id (·.write key value)))
    (linked : ∀ prototype, regime.CarriesFrom heap (Heap.judgePrototype watched id prototype)
      (Heap.judgePrototype plain id prototype))
    (inherited : ∀ object, heap.examine id = .ok object → object.getOwn key = none →
      regime.CarriesFrom heap (Heap.judgeInherited watched id key value)
        (Heap.judgeInherited plain id key value)) :
    regime.CarriesFrom heap (Heap.judgePut watched id key value)
      (Heap.judgePut plain id key value) := by
  apply CarriesFrom.bind_reading safe (ready.on_inspect watched) (ready.on_inspect plain)
  intro object examined
  cases found : object.getOwn key with
  | some slot =>
    simp only [Option.map_some]
    cases slot.descriptor with
    | accessor get set attributes =>
      exact serves.carries_callSetter set key (.object id) value heap safe
    | data old attributes => exact written
  | none =>
    simp only [Option.map_none]
    split
    next =>
      cases value
      case object next => exact linked (some next)
      case null => exact linked none
      all_goals exact Carries.pure _ heap safe
    next => exact inherited object examined found

theorem carries_swap {id : ObjectId} {a b : UInt32}
    (stores : regime.Carries (Heap.judge watched id (Heap.exchangeStored a b))
      (Heap.judge plain id (Heap.exchangeStored a b)))
    (puts : ∀ key value, regime.Carries (Heap.judgePut watched id key value)
      (Heap.judgePut plain id key value)) :
    regime.Carries (Heap.swap watched id a b) (Heap.swap plain id a b) :=
  serves.simulated.swap stores puts

theorem carries_looking {reply : Reply} {command : Command reply} (looks : command.looks = true) :
    regime.Carries (command.execute watched) (command.execute plain) :=
  serves.simulated.execute looks

end Serves

end Regime

end ObjectModel
