import ObjectModel.Proofs.Heap.Discipline
import ObjectModel.Proofs.Heap.Serving

/-!
# Commands on heaps with lazy objects

Whatever the commands, what they do to a heap comes down to a short list of changes, of which the
construction of lazy objects is one.  A regime that bears these bears every run of native code.
-/

namespace ObjectModel

/-- Whether a command puts a representation under a handle in place of another one. -/
def Command.replaces (id : ObjectId) (representation : Representation) :
    {reply : Reply} → Command reply → Prop
  | _, .replace target replacement => target = id ∧ replacement = representation
  | _, _ => False

namespace Heap

theorem isLazy_of_view? {heap : Heap} {representation : Representation} {object : Object}
    (viewed : heap.view? representation = some object) : representation.isLazy = false := by
  cases representation
  case pending => cases viewed
  case spent => cases viewed
  all_goals rfl

theorem isLazy_represent (old : Representation) (object : Object) (eager : old.isLazy = false) :
    (represent old object).isLazy = false := by
  cases object
  case map view => cases old <;> first | rfl | cases eager
  case sequence view => cases old <;> first | rfl | cases eager
  case function base => cases old <;> first | rfl | cases eager
  all_goals rfl

end Heap

namespace Regime

/-- Whether a regime bears that functions are called and lazy objects are constructed, where all
native code obeys a discipline. -/
structure Enters (regime : Regime) (discipline : Discipline) : Prop where
  steady : ∀ {heap}, regime.safe heap → heap.Steady
  runs : ∀ {heap}, regime.safe heap → ∀ {id cell}, heap.cell? id = some cell →
    cell.value.Runs discipline
  spent : ∀ {before after}, regime.leadsTo before after → ∀ {id},
    before.cell? id = some (.new .spent) → after.cell? id = some (.new .spent)
  recorded : ∀ {heap}, regime.safe heap → ∀ event, (∀ id, event ≠ .factory id) →
    regime.Reaches heap (heap.record event)
  borrowed : ∀ {heap}, regime.safe heap → ∀ {id cell}, heap.cell? id = some cell →
    cell.value.isLazy = false → ∀ borrow, regime.Reaches heap (heap.setCell id { cell with borrow })
  entered : ∀ {heap}, regime.safe heap → ∀ {id factory},
    heap.cell? id = some (.new (.pending factory)) → regime.safe (heap.entered id)
  failed : ∀ {heap}, regime.safe heap → ∀ {id factory},
    heap.cell? id = some (.new (.pending factory)) → ∀ {depth fault after},
      ((Engine.within depth).run factory).on (heap.entered id) = some (.error fault, after) →
        regime.Reaches (heap.entered id) after → regime.Reaches heap after
  built : ∀ {heap}, regime.safe heap → ∀ {id factory},
    heap.cell? id = some (.new (.pending factory)) → ∀ {depth representation after},
      ((Engine.within depth).run factory).on (heap.entered id) =
          some (.ok representation, after) → representation.Obeys discipline →
        regime.Reaches (heap.entered id) after →
          regime.Reaches heap (after.setCell id (.new representation))

namespace Enters

variable {regime : Regime} {discipline : Discipline} {watched : Engine} {depth : Nat}
  (enters : regime.Enters discipline) (follows : watched.Follows (.within depth) discipline regime)

include enters follows

theorem carries_enterFactory (id : ObjectId) :
    regime.Carries (Heap.enterFactory watched id) (Heap.enterFactory (.within depth) id) := by
  intro heap safe
  rcases (enters.steady safe).cases id with ready | spent | ⟨factory, pending⟩
  · have ran := ready.on_enterFactory watched
    exact .of_on ran ((ready.on_enterFactory _).trans ran.symm) (.refl safe)
  · have ran : (Heap.enterFactory watched id).on heap = _ := Heap.on_enterFactory_spent spent
    exact .of_on ran ((Heap.on_enterFactory_spent spent).trans ran.symm) (.refl safe)
  · -- The handle stays spent while the factory runs, so what it builds can be installed.
    intro outcome last ran
    rw [Heap.on_enterFactory_pending pending, Action.on_bind] at ran
    cases running : (watched.run factory).on (heap.entered id) with
    | none =>
      rw [running] at ran
      cases ran
    | some ended =>
      obtain ⟨result, after⟩ := ended
      rw [running] at ran
      have obeys : factory.Obeys discipline := enters.runs safe pending
      obtain ⟨runningPlain, reached⟩ :=
        follows.run factory obeys _ (enters.entered safe pending) result after running
      cases result with
      | error fault =>
        cases ran
        refine ⟨?_, enters.failed safe pending runningPlain reached⟩
        rw [Heap.on_enterFactory_pending pending]
        exact Action.on_bind_error runningPlain _
      | ok built =>
        have spent : after.cell? id = some (.new .spent) := by
          apply enters.spent reached.2
          rw [Heap.cell?_entered pending, if_pos rfl]
        have installed := Action.on_bind_ok (Heap.on_install spent rfl built)
          fun _ => (pure true : Action Bool)
        cases installed.symm.trans ran
        have builtObeys := Engine.obeys_of_on_run obeys runningPlain
        exact ⟨Heap.on_enterFactory_built pending runningPlain spent,
          enters.built safe pending runningPlain builtObeys reached⟩

theorem carries_construct (id : ObjectId) :
    regime.Carries (Heap.construct watched id) (Heap.construct (.within depth) id) := by
  unfold Heap.construct
  rw [follows.depth]
  exact (enters.carries_enterFactory follows id).constructWithin _

/-- Once an object is constructed nothing else happens before what follows. -/
theorem carries_constructs {α : Type} {heap : Heap} (safe : regime.safe heap) {id : ObjectId}
    {action actionPlain : Action α}
    (constructs : ∀ heap, Heap.Constructs watched id heap action)
    (constructsPlain : ∀ heap, Heap.Constructs (.within depth) id heap actionPlain)
    (carriesNext : ∀ after, regime.Reaches heap after → after.Constructed id →
      regime.CarriesFrom after action actionPlain) :
    regime.CarriesFrom heap action actionPlain := by
  have begins : action = Heap.construct watched id >>= fun _ => action := funext constructs
  have beginsPlain : actionPlain = Heap.construct (.within depth) id >>= fun _ => actionPlain :=
    funext constructsPlain
  rw [begins, beginsPlain]
  exact (enters.carries_construct follows id heap safe).construct_bind carriesNext

theorem carries_call (function this : Value) (args : List Value) :
    regime.Carries (Heap.call watched function this args)
      (Heap.call (.within depth) function this args) := by
  cases function
  case object id =>
    intro heap safe
    apply enters.carries_constructs follows safe
    case constructs => exact fun _ => .call this args
    case constructsPlain => exact fun _ => .call this args
    intro after reached constructed
    apply CarriesFrom.call reached.1 follows constructed.ready
    case runs => exact fun cell found => enters.runs reached.1 found
    case recorded => exact fun name => .modify fun _ safe => enters.recorded safe _ fun _ => nofun
  all_goals exact (Keeps.throw _).carries

theorem serves : regime.Serves watched (.within depth) where
  depth := follows.depth
  construct := enters.carries_construct follows
  call := enters.carries_call follows

theorem carries_judge {α : Type} {heap : Heap} (safe : regime.safe heap) {id : ObjectId}
    {change : Object → Except Fault (α × Object)}
    (reaches : ∀ {mid}, regime.Reaches heap mid → ∀ {cell object},
      mid.grasp id = .ok (cell, object) → ∀ {result next}, change object = .ok (result, next) →
        regime.Reaches mid (mid.store id cell next)) :
    regime.CarriesFrom heap (Heap.judge watched id change)
      (Heap.judge (.within depth) id change) := by
  apply enters.carries_constructs follows safe
  case constructs => exact fun _ => .judge change
  case constructsPlain => exact fun _ => .judge change
  intro mid reached constructed
  exact .amend reached.1 constructed.ready (reaches reached)

theorem carries_hold {form : Reply} (id : ObjectId) (exclusive : Bool) {body : Code (.reply form)}
    (obeys : body.Obeys discipline) :
    regime.Carries (Heap.hold watched id exclusive body)
      (Heap.hold (.within depth) id exclusive body) := by
  apply Carries.hold (enters.carries_construct follows id) (follows.run body obeys)
  intro heap safe cell found borrow free
  cases lazy : cell.value.isLazy with
  | false => exact enters.borrowed safe found lazy borrow
  | true =>
    have freeBefore := enters.steady safe id cell found lazy
    have same : { cell with borrow } = cell := by
      rw [free lazy freeBefore, ← freeBefore]
    rw [same, Heap.setCell_self found]
    exact .refl safe

theorem carries_replace (id : ObjectId) {representation : Representation}
    (replaced : ∀ {heap}, regime.safe heap → ∀ {cell}, heap.cell? id = some cell →
      cell.value.isLazy = false → regime.Reaches heap (heap.setCell id (.new representation))) :
    regime.Carries (Heap.replace watched id representation)
      (Heap.replace (.within depth) id representation) := by
  apply (enters.carries_construct follows id).construct_bind
  intro heap safe constructed
  apply CarriesFrom.bind_reading safe (Heap.on_cellOf heap id) (Heap.on_cellOf heap id)
  intro cell held
  apply CarriesFrom.bind_reading safe (Action.on_ofExcept _ heap) (Action.on_ofExcept _ heap)
  intro installed replacing
  have found := Heap.cell?_of_held held
  have reached : regime.Reaches heap (heap.setCell id installed.2) := by
    obtain ⟨_, read, same⟩ := exists_of_map_eq_ok replacing
    have free := Heap.of_readForWriting read
    have reached := replaced safe found (constructed.ready cell found)
    rw [← same, free]
    exact reached
  exact .of_on (Action.on_modify _ heap) rfl reached

end Enters

/-- Whether a regime withstands whatever commands do to a heap, as long as the native code that they
are given obeys a discipline. -/
structure Withstands (regime : Regime) (discipline : Discipline) : Prop
    extends regime.Enters discipline where
  shared : ∀ {heap}, regime.safe heap → ∀ collection names,
    regime.Reaches heap { heap with collections := heap.collections.push collection, names }
  edited : ∀ {heap}, regime.safe heap → ∀ {source collection},
    heap.collection? source = some collection → ∀ edit,
      regime.Reaches heap (heap.setCollection source (collection.edit edit))
  allocated : ∀ {heap}, regime.safe heap → ∀ {representation : Representation},
    representation.Obeys discipline →
      regime.Reaches heap { heap with cells := heap.cells.push (.new representation) }
  amended : ∀ {heap}, regime.safe heap → ∀ {id cell object},
    heap.grasp id = .ok (cell, object) → ∀ {next}, object.Becomes discipline next →
      regime.Reaches heap (heap.store id cell next)

namespace Withstands

variable {regime : Regime} {discipline : Discipline} {watched : Engine} {depth : Nat}
  (withstands : regime.Withstands discipline)
  (follows : watched.Follows (.within depth) discipline regime)

include withstands follows

theorem carries_change {α : Type} (id : ObjectId) {change : Object → Except Fault (α × Object)}
    (changes : ∀ {object result next}, change object = .ok (result, next) →
      object.Becomes discipline next) :
    regime.Carries (Heap.judge watched id change) (Heap.judge (.within depth) id change) :=
  fun _ safe => withstands.carries_judge follows safe fun reached _ _ grasped _ _ done =>
    withstands.amended reached.1 grasped (changes done)

/-- What is given no code is carried, for whatever becomes of an object is borne. -/
theorem amends : regime.simulation.Amends discipline watched fun _ => .within depth where
  toServes := (withstands.serves follows).simulated
  amend id _ changes := withstands.carries_change follows id changes
  size := Keeps.get.carries.map Heap.size
  share collection name :=
    (Keeps.share collection name fun safe => withstands.shared safe collection).carries
  edit name edit :=
    (Keeps.edit name edit fun safe _ _ found => withstands.edited safe found edit).carries
  note outcome :=
    (Keeps.modify fun _ safe =>
      withstands.recorded safe (.step outcome) fun _ => nofun).carries

/-- Every command is borne, if what it puts into the place of another representation is. -/
theorem carries_execute {reply : Reply} (command : Command reply) (obeys : command.Obeys discipline)
    (replaced : ∀ {id representation}, command.replaces id representation →
      ∀ {heap}, regime.safe heap → ∀ {cell}, heap.cell? id = some cell →
        cell.value.isLazy = false → regime.Reaches heap (heap.setCell id (.new representation))) :
    regime.Carries (command.execute watched) (command.execute (.within depth)) := by
  cases command
  case allocate representation =>
    intro heap safe
    exact .of_on rfl rfl (withstands.allocated safe obeys.2)
  case replace id representation =>
    exact withstands.carries_replace follows id (replaced ⟨rfl, rfl⟩)
  case hold id exclusive body => exact withstands.carries_hold follows id exclusive obeys.2
  all_goals exact (withstands.amends follows).execute rfl obeys

end Withstands

/-- Whether a regime bears whatever commands do, except that representations are replaced. -/
structure Bears (regime : Regime) : Prop extends regime.Enters .free where
  hosted : ∀ {heap}, regime.safe heap → ∀ collections names,
    regime.Reaches heap { heap with collections, names }
  allocated : ∀ {heap}, regime.safe heap → ∀ representation,
    regime.Reaches heap { heap with cells := heap.cells.push (.new representation) }
  changed : ∀ {heap}, regime.safe heap → ∀ {id cell}, heap.cell? id = some cell →
    cell.value.isLazy = false → ∀ {next : ObjectCell Representation}, next.value.isLazy = false →
      regime.Reaches heap (heap.setCell id next)
  runs _ _ _ _ := (Representation.obeys_iff.mp (Representation.obeys_free _)).2
  borrowed safe _ _ found eager _ := changed safe found eager eager

namespace Bears

variable {regime : Regime} {watched : Engine} {depth : Nat} (bears : regime.Bears)

include bears

theorem reaches_store {heap : Heap} (safe : regime.safe heap) {id : ObjectId}
    {cell : ObjectCell Representation} {object : Object}
    (grasped : heap.grasp id = .ok (cell, object)) (next : Object) :
    regime.Reaches heap (heap.store id cell next) := by
  obtain ⟨found, viewed, _⟩ := Heap.of_grasp grasped
  have eager := Heap.isLazy_of_view? viewed
  have kept := Heap.isLazy_represent cell.value next eager
  have stored : regime.Reaches heap
      (heap.setCell id { cell with value := Heap.represent cell.value next }) :=
    bears.changed safe found eager kept
  unfold Heap.store
  simp only
  split
  next => exact stored.trans (bears.hosted stored.1 _ heap.names)
  next => exact stored

/-- What bears every change of the cells and the collections withstands the commands. -/
theorem withstands : regime.Withstands .free where
  toEnters := bears.toEnters
  shared safe _ names := bears.hosted safe _ names
  edited {heap} safe _ _ _ _ := bears.hosted safe _ heap.names
  allocated safe _ _ := bears.allocated safe _
  amended safe _ _ _ grasped next _ := bears.reaches_store safe grasped next

theorem carries_execute (follows : watched.Follows (.within depth) .free regime) {reply : Reply}
    (command : Command reply)
    (replaced : ∀ {id representation}, command.replaces id representation →
      ∀ {heap}, regime.safe heap → ∀ {cell}, heap.cell? id = some cell →
        cell.value.isLazy = false → regime.Reaches heap (heap.setCell id (.new representation))) :
    regime.Carries (command.execute watched) (command.execute (.within depth)) :=
  bears.withstands.carries_execute follows command command.obeys_free replaced

end Bears

end Regime

end ObjectModel
