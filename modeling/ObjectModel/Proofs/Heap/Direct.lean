import ObjectModel.Proofs.Heap.Discipline
import ObjectModel.Proofs.Heap.Serving
import ObjectModel.Proofs.Heap.Store
import ObjectModel.Proofs.Object.Mutation

/-!
# Commands that go through the property protocol

All commands but a few ask an object before they change it.  What they can do to a heap without lazy
objects comes down to a short list of changes; a regime that allows these allows every run of code
that performs such commands only.
-/

namespace ObjectModel

/-- Whether a command changes objects without asking them as every caller has to. -/
def Command.bypasses : {reply : Reply} → Command reply → Bool
  | _, .swap .. => true
  | _, .mutate .. => true
  | _, .relink .. => true
  | _, .resize .. => true
  | _, .replace .. => true
  | _, _ => false

/-- The discipline of code that bypasses nothing. -/
def Discipline.direct (admits : Representation → Prop) : Discipline where
  permits command := command.bypasses = false
  admits := admits

namespace Regime

/-- Whether a regime tolerates what commands that bypass nothing do to the objects that a heap
without lazy objects has. -/
structure Tolerates (regime : Regime) (discipline : Discipline) : Prop where
  eager : ∀ {heap}, regime.safe heap → heap.Eager
  obeys : ∀ {heap}, regime.safe heap → ∀ {id cell}, heap.cell? id = some cell →
    cell.value.Obeys discipline
  recorded : ∀ {heap}, regime.safe heap → ∀ event, regime.Reaches heap (heap.record event)
  mutated : ∀ {heap}, regime.safe heap → ∀ {id cell object}, heap.grasp id = .ok (cell, object) →
    ∀ {mutation : OwnMutation} {verdict next}, mutation.Suits object.getOwn →
      object.mutate mutation = .ok (verdict, next) → regime.Reaches heap (heap.store id cell next)
  linked : ∀ {heap}, regime.safe heap → ∀ {id cell object}, heap.grasp id = .ok (cell, object) →
    object.isExtensible = true → ∀ {depth prototype}, heap.linksTo id depth prototype = .ok false →
      regime.Reaches heap (heap.store id cell (object.setPrototype prototype))
  closed : ∀ {heap}, regime.safe heap → ∀ {id cell object}, heap.grasp id = .ok (cell, object) →
    regime.Reaches heap (heap.store id cell object.preventExtensions)
  hosted : ∀ {heap}, regime.safe heap → ∀ collections names,
    heap.collections.size ≤ collections.size → regime.Reaches heap { heap with collections, names }

/-- Whether a regime also allows new objects, and cells that are held while code runs. -/
structure Allows (regime : Regime) (admits : Representation → Prop) : Prop
    extends regime.Tolerates (.direct admits) where
  allocated : ∀ {heap}, regime.safe heap → ∀ {representation : Representation},
    representation.Obeys (.direct admits) →
      regime.Reaches heap { heap with cells := heap.cells.push (.new representation) }
  borrowed : ∀ {heap}, regime.safe heap → ∀ {id cell}, heap.cell? id = some cell →
    ∀ borrow, regime.Reaches heap (heap.setCell id { cell with borrow })

namespace Tolerates

variable {regime : Regime} {discipline : Discipline} {watched plain : Engine}

section Changing

variable (tolerates : regime.Tolerates discipline)

include tolerates

theorem carries_judge {α : Type} {heap : Heap} (safe : regime.safe heap) {id : ObjectId}
    {change : Object → Except Fault (α × Object)}
    (reaches : ∀ {cell object}, heap.grasp id = .ok (cell, object) → ∀ {result next},
      change object = .ok (result, next) → regime.Reaches heap (heap.store id cell next)) :
    regime.CarriesFrom heap (Heap.judge watched id change) (Heap.judge plain id change) :=
  .amend safe ((tolerates.eager safe).ready id) reaches

theorem carries_mutate (id : ObjectId) {mutation : OwnMutation}
    {change : Object → Except Fault (Verdict × Object)}
    (mutates : ∀ object, change object = object.mutate mutation)
    (suits : ∀ property, mutation.Suits property) :
    regime.Carries (Heap.judge watched id change) (Heap.judge plain id change) := by
  intro heap safe
  apply tolerates.carries_judge safe
  intro cell object grasped verdict next done
  rw [mutates] at done
  exact tolerates.mutated safe grasped (suits object.getOwn) done

theorem carries_write (id : ObjectId) (key : Key) (value : Value) :
    regime.Carries (Heap.judge watched id (·.write key value))
      (Heap.judge plain id (·.write key value)) := by
  have mutates : ∀ object : Object, object.write key value = object.mutate (.write key value) :=
    fun _ => rfl
  exact tolerates.carries_mutate id mutates fun _ => trivial

theorem carries_define (id : ObjectId) (key : Key) (request : Request) :
    regime.Carries (Heap.judgeDefine watched id key request)
      (Heap.judgeDefine plain id key request) := by
  have mutates : ∀ object : Object,
      object.define key request = object.mutate (.define key request) := fun _ => rfl
  apply (Keeps.ofExcept request.validate).carries.bind
  intro _
  exact tolerates.carries_mutate id mutates fun _ => trivial

theorem carries_delete (id : ObjectId) (key : Key) :
    regime.Carries (Heap.judgeDelete watched id key) (Heap.judgeDelete plain id key) := by
  have mutates : ∀ object : Object, .ok (object.delete key) = object.mutate (.delete key) :=
    fun _ => rfl
  exact tolerates.carries_mutate id mutates fun _ => trivial

theorem carries_preventExtensions (id : ObjectId) :
    regime.Carries (Heap.preventExtensions watched id) (Heap.preventExtensions plain id) := by
  have closed : regime.Carries
      (Heap.judge watched id fun object => .ok ((), object.preventExtensions))
      (Heap.judge plain id fun object => .ok ((), object.preventExtensions)) := by
    intro heap safe
    apply tolerates.carries_judge safe
    intro cell object grasped _ next done
    cases done
    exact tolerates.closed safe grasped
  exact closed.bind fun _ => .pure _

/-- Between the look at the object and the change of its link nothing else happens. -/
theorem carries_setPrototype (id : ObjectId) (prototype : Option ObjectId) :
    regime.Carries (Heap.judgePrototype watched id prototype)
      (Heap.judgePrototype plain id prototype) := by
  intro heap safe
  have eager := tolerates.eager safe
  apply CarriesFrom.bind_reading safe (eager.on_inspect watched id) (eager.on_inspect plain id)
  intro object examined
  split
  next => exact Carries.pure _ heap safe
  next =>
    split
    next => exact Carries.pure _ heap safe
    next notClosed =>
      have extensible : object.isExtensible = true := by
        rw [Bool.not_eq_true, Bool.not_eq_false'] at notClosed
        exact notClosed
      apply CarriesFrom.bind_reading safe (Action.on_get heap) (Action.on_get heap)
      intro _ same
      cases same
      apply CarriesFrom.bind_reading safe (eager.on_leadsTo watched id _ prototype)
        (eager.on_leadsTo plain id _ prototype)
      intro cyclic linked
      cases cyclic
      case true => exact Carries.pure _ heap safe
      case false =>
        have relinked : regime.CarriesFrom heap
            (Heap.judge watched id fun object => .ok ((), object.setPrototype prototype))
            (Heap.judge plain id fun object => .ok ((), object.setPrototype prototype)) := by
          apply tolerates.carries_judge safe
          intro cell held grasped _ next done
          cases done
          have same : held = object := by
            rw [(Heap.of_grasp grasped).2.2] at examined
            exact Except.ok.inj examined
          rw [same] at grasped ⊢
          exact tolerates.linked safe grasped extensible linked
        exact relinked.bind fun _ => .pure _

theorem carries_add {heap : Heap} (safe : regime.safe heap) {id : ObjectId} {object : Object}
    (examined : heap.examine id = .ok object) {key : Key} (absent : object.getOwn key = none)
    (value : Value) :
    regime.CarriesFrom heap (Heap.judge watched id (·.add key value))
      (Heap.judge plain id (·.add key value)) := by
  apply tolerates.carries_judge safe
  intro cell held grasped verdict next added
  have same : held = object := by
    rw [(Heap.of_grasp grasped).2.2] at examined
    exact Except.ok.inj examined
  have suits : (OwnMutation.add key value).Suits held.getOwn := by
    rw [same]
    exact absent
  have mutated : held.mutate (.add key value) = .ok (verdict, next) := added
  exact tolerates.mutated safe grasped suits mutated

end Changing

section Running

variable (tolerates : regime.Tolerates discipline)
  (follows : watched.Follows plain discipline regime)

include tolerates follows

theorem carries_call (function this : Value) (args : List Value) :
    regime.Carries (Heap.call watched function this args) (Heap.call plain function this args) := by
  cases function
  case object id =>
    intro heap safe
    have ready := (tolerates.eager safe).ready id
    apply CarriesFrom.call safe follows ready
    case runs =>
      exact fun cell found => (Representation.obeys_iff.mp (tolerates.obeys safe found)).2
    case recorded => exact fun name => .modify fun _ safe => tolerates.recorded safe _
  all_goals exact (Keeps.throw _).carries

theorem serves : regime.Serves watched plain where
  depth := follows.depth
  construct id := by
    intro heap safe
    have ready := (tolerates.eager safe).ready id
    have ran := ready.on_construct watched
    exact .of_on ran ((ready.on_construct plain).trans ran.symm) (.refl safe)
  call := tolerates.carries_call follows

/-- The prototypes decide about a property that the object lacks; asking them changes nothing. -/
theorem carries_putInherited {heap : Heap} (safe : regime.safe heap) {id : ObjectId}
    {object : Object} (examined : heap.examine id = .ok object) {key : Key}
    (absent : object.getOwn key = none) (value : Value) :
    regime.CarriesFrom heap (Heap.judgeInherited watched id key value)
      (Heap.judgeInherited plain id key value) := by
  have eager := tolerates.eager safe
  have added : regime.CarriesFrom heap (Heap.judge watched id (·.add key value))
      (Heap.judge plain id (·.add key value)) := tolerates.carries_add safe examined absent value
  apply CarriesFrom.bind_reading safe (eager.on_inherited watched id key)
    (eager.on_inherited plain id key)
  intro found _
  exact (tolerates.serves follows).carriesFrom_judgeUnder safe added found

theorem carries_put (id : ObjectId) (key : Key) (value : Value) :
    regime.Carries (Heap.judgePut watched id key value) (Heap.judgePut plain id key value) := by
  intro heap safe
  apply (tolerates.serves follows).carriesFrom_put safe ((tolerates.eager safe).ready id)
  case written => exact tolerates.carries_write id key value heap safe
  case linked => exact fun prototype => tolerates.carries_setPrototype id prototype heap safe
  case inherited =>
    intro object examined absent
    exact tolerates.carries_putInherited follows safe examined absent value

theorem carries_execute {reply : Reply} (command : Command reply)
    (direct : command.bypasses = false) (codeless : command.carriesCode = false) :
    regime.Carries (command.execute watched) (command.execute plain) := by
  have serves := tolerates.serves follows
  cases command
  case size => exact (Keeps.get.bind fun _ => .pure _).carries
  case put id key value strict =>
    rw [Command.execute_put, Command.execute_put]
    exact (tolerates.carries_put follows id key value).report strict
  case define id key request strict =>
    rw [Command.execute_define, Command.execute_define]
    exact (tolerates.carries_define id key request).report strict
  case delete id key strict =>
    rw [Command.execute_delete, Command.execute_delete]
    exact (tolerates.carries_delete id key).report strict
  case preventExtensions id => exact tolerates.carries_preventExtensions id
  case setPrototype id prototype strict =>
    rw [Command.execute_setPrototype, Command.execute_setPrototype]
    exact (tolerates.carries_setPrototype id prototype).report strict
  case share collection name =>
    have shared : regime.Keeps (Heap.share collection name) := by
      apply Keeps.share
      intro heap safe names
      apply tolerates.hosted safe
      rw [Array.size_push]
      exact Nat.le_succ _
    exact shared.carries
  case edit name edit =>
    have edited : regime.Keeps (Heap.edit name edit) := by
      apply Keeps.edit
      intro heap safe source collection _
      exact tolerates.hosted safe _ heap.names (Nat.le_of_eq Array.size_setIfInBounds.symm)
    exact edited.carries
  case note outcome => exact (Keeps.modify fun _ safe => tolerates.recorded safe _).carries
  case allocate => cases codeless
  case hold => cases codeless
  case swap => cases direct
  case mutate => cases direct
  case relink => cases direct
  case resize => cases direct
  case replace => cases direct
  all_goals exact serves.carries_looking rfl

end Running

end Tolerates

namespace Allows

variable {regime : Regime} {admits : Representation → Prop} {engine : Engine}
  (allows : regime.Allows admits)

include allows

theorem keeps_allocate {representation : Representation}
    (obeys : representation.Obeys (.direct admits)) :
    regime.Keeps (Heap.allocate representation) := by
  intro heap safe
  have ran : (Heap.allocate representation).on heap =
      some (.ok ⟨heap.size⟩, { heap with cells := heap.cells.push (.new representation) }) := rfl
  exact .of_on ran (allows.allocated safe obeys)

variable (respects : engine.Respects (.direct admits) regime)

include respects

theorem keeps_hold {form : Reply} (id : ObjectId) (exclusive : Bool) (body : Code (.reply form))
    (obeys : body.Obeys (.direct admits)) :
    regime.Keeps (Heap.hold engine id exclusive body) := by
  have serves := allows.toTolerates.serves respects.follows
  have held : regime.Carries (Heap.hold engine id exclusive body)
      (Heap.hold engine id exclusive body) := by
    apply Carries.hold (serves.construct id) (respects body obeys).carries
    intro heap safe cell found borrow _
    exact allows.borrowed safe found borrow
  exact held.keeps

/-- Every command that bypasses nothing is within the regime. -/
theorem keeps_execute {reply : Reply} (command : Command reply)
    (obeys : command.Obeys (.direct admits)) : regime.Keeps (command.execute engine) := by
  have direct : command.bypasses = false := obeys.permitted
  cases coded : command.carriesCode with
  | false =>
    exact (allows.toTolerates.carries_execute respects.follows command direct coded).keeps
  | true =>
    cases command
    case allocate representation => exact allows.keeps_allocate obeys.2
    case hold id exclusive body => exact allows.keeps_hold respects id exclusive body obeys.2
    case replace id representation => cases direct
    all_goals cases coded

end Allows

end Regime

end ObjectModel
