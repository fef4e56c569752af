import ObjectModel.Proofs.Heap.Eager
import ObjectModel.Proofs.Heap.Store

/-!
# Construction of lazy objects

To construct a lazy object its factory is entered, on a heap where the object is spent, and what it
builds is constructed in turn.  A construction that succeeds leaves an object that is not lazy, and
to construct that one again does nothing.
-/

namespace ObjectModel

namespace Heap

variable {heap after : Heap} {id : ObjectId} {engine : Engine}
  {factory : Code .representation} {built : Representation}

/-- Whether nobody holds the cell of a lazy object. -/
def Steady (heap : Heap) : Prop :=
  ∀ id cell, heap.cell? id = some cell → cell.value.isLazy = true → cell.borrow = .free

/-- The heap on which the factory of a handle runs. -/
def entered (heap : Heap) (id : ObjectId) : Heap :=
  (heap.setCell id (.new .spent)).record (.factory id)

/-- Whether a handle is that of an object that can be looked at and is not lazy. -/
def Constructed (heap : Heap) (id : ObjectId) : Prop :=
  ∃ representation, heap.look id = .ok representation ∧ representation.isLazy = false

theorem Steady.cases (steady : heap.Steady) (id : ObjectId) :
    heap.Ready id ∨ heap.cell? id = some (.new .spent) ∨
      ∃ factory, heap.cell? id = some (.new (.pending factory)) := by
  cases found : heap.cell? id with
  | none =>
    left
    intro cell foundToo
    rw [found] at foundToo
    cases foundToo
  | some cell =>
    cases lazy : cell.value.isLazy with
    | false =>
      left
      intro other foundOther
      rw [found] at foundOther
      cases foundOther
      exact lazy
    | true =>
      right
      obtain ⟨representation, borrow⟩ := cell
      have free : borrow = .free := steady id _ found lazy
      rw [free]
      cases representation
      case spent => exact .inl rfl
      case pending factory => exact .inr ⟨factory, rfl⟩
      all_goals cases lazy

theorem cell?_entered (found : heap.cell? id = some (.new (.pending factory))) (other : ObjectId) :
    (heap.entered id).cell? other =
      if other = id then some (.new .spent) else heap.cell? other :=
  cell?_setCell found (.new .spent) other

theorem on_install {cell : ObjectCell Representation} (found : heap.cell? id = some cell)
    (free : cell.borrow = .free) (representation : Representation) :
    (install id representation).on heap =
      some (.ok (), heap.setCell id (.new representation)) := by
  have held : heap.held id = .ok cell := by
    unfold Heap.held
    rw [found]
  cases cell
  cases free
  unfold install
  rw [Action.on_bind, on_cellOf, held]
  rfl

theorem look_of_new {representation : Representation}
    (found : heap.cell? id = some (.new representation)) :
    heap.look id = .ok representation := by
  unfold look held
  rw [found]
  rfl

namespace Constructed

theorem ready (constructed : heap.Constructed id) : heap.Ready id := by
  obtain ⟨representation, looked, eager⟩ := constructed
  obtain ⟨cell, found, rfl⟩ := cell?_of_look looked
  intro other foundOther
  rw [found] at foundOther
  cases foundOther
  exact eager

theorem on_enterFactory (constructed : heap.Constructed id) (engine : Engine) :
    (enterFactory engine id).on heap = some (.ok false, heap) := by
  rw [constructed.ready.on_enterFactory]
  obtain ⟨representation, looked, _⟩ := constructed
  rw [looked]
  rfl

theorem on_constructWithin (constructed : heap.Constructed id) (engine : Engine) (depth : Nat) :
    (constructWithin engine id depth).on heap = some (.ok (), heap) := by
  have entering := constructed.on_enterFactory engine
  cases depth <;> exact Action.on_bind_ok entering _

theorem on_construct (constructed : heap.Constructed id) (engine : Engine) :
    (construct engine id).on heap = some (.ok (), heap) :=
  constructed.on_constructWithin engine engine.depth

theorem of_new {representation : Representation}
    (found : heap.cell? id = some (.new representation)) (eager : representation.isLazy = false) :
    heap.Constructed id :=
  ⟨representation, look_of_new found, eager⟩

end Constructed

theorem on_enterFactory_spent (spent : heap.cell? id = some (.new .spent)) :
    (enterFactory engine id).on heap = some (.error (.internal .notConstructed), heap) := by
  have held : heap.held id = .ok (.new .spent) := by
    unfold Heap.held
    rw [spent]
  unfold enterFactory
  rw [Action.on_bind, on_cellOf, held]
  rfl

theorem on_enterFactory_pending (pending : heap.cell? id = some (.new (.pending factory))) :
    (enterFactory engine id).on heap =
      (engine.run factory >>= fun built => install id built >>= fun _ => pure true).on
        (heap.entered id) := by
  have held : heap.held id = .ok (.new (.pending factory)) := by
    unfold Heap.held
    rw [pending]
  have read : (ObjectCell.new (Representation.pending factory)).read = .ok (.pending factory) := rfl
  unfold enterFactory
  rw [Action.on_bind, on_cellOf, held]
  simp only
  rw [read, Action.on_bind_ok (Action.on_ofExcept _ heap)]
  exact Action.on_bind_ok (on_install pending rfl .spent) _

theorem ensures_enterFactory (engine : Engine) (heap : Heap) (id : ObjectId) :
    (enterFactory engine id).Ensures heap fun outcome after =>
      outcome = .ok false → after = heap ∧ heap.Constructed id := by
  refine .bind_reading (on_cellOf heap id) ?_ fun _ _ => nofun
  intro cell held
  refine .bind_reading (Action.on_ofExcept _ heap) ?_ fun _ _ => nofun
  intro representation read
  have looked : heap.look id = .ok representation := by
    unfold look
    rw [held]
    exact read
  cases representation
  case pending factory =>
    -- Whatever the factory does, this ends with `true` or a fault.
    refine .bind_last (fun _ _ => ?_) fun _ _ => nofun
    refine .bind_last (fun _ _ => ?_) fun _ _ => nofun
    refine .bind_last (fun _ _ => ?_) fun _ _ => nofun
    exact .bind_last (fun _ _ => .of_on rfl nofun) fun _ _ => nofun
  case spent => exact .bind_last (fun _ _ => .of_on rfl nofun) fun _ _ => nofun
  all_goals exact .of_on rfl fun _ => ⟨rfl, _, looked, rfl⟩

theorem ensures_constructWithin (engine : Engine) (id : ObjectId) (depth : Nat) (heap : Heap) :
    (constructWithin engine id depth).Ensures heap fun outcome after =>
      outcome = .ok () → after.Constructed id := by
  induction depth generalizing heap with
  | zero =>
    refine (ensures_enterFactory engine heap id).bind ?_ fun _ _ _ => nofun
    intro entered after constructed
    cases entered
    case true =>
      intro outcome last ran
      cases ran
    case false =>
      obtain ⟨rfl, constructed⟩ := constructed rfl
      exact .of_on rfl fun _ => constructed
  | succ depth inductionHypothesis =>
    refine (ensures_enterFactory engine heap id).bind ?_ fun _ _ _ => nofun
    intro entered after constructed
    cases entered
    case true => exact inductionHypothesis after
    case false =>
      obtain ⟨rfl, constructed⟩ := constructed rfl
      exact .of_on rfl fun _ => constructed

theorem constructed_of_on_construct
    (ran : (construct engine id).on heap = some (.ok (), after)) : after.Constructed id :=
  ensures_constructWithin engine id engine.depth heap _ _ ran rfl

/-- A construction that ends does so within any greater depth. -/
theorem on_constructWithin_succ {depth : Nat} {ended : Except Fault Unit × Heap}
    (ran : (constructWithin engine id depth).on heap = some ended) :
    (constructWithin engine id (depth + 1)).on heap = some ended := by
  induction depth generalizing heap with
  | zero =>
    unfold constructWithin at ran ⊢
    rw [Action.on_bind] at ran ⊢
    rcases entering : (enterFactory engine id).on heap with _ | ⟨_ | _ | _, mid⟩
    all_goals
      rw [entering] at ran
      first | exact ran | cases ran
  | succ depth inductionHypothesis =>
    unfold constructWithin at ran ⊢
    rw [Action.on_bind] at ran ⊢
    rcases entering : (enterFactory engine id).on heap with _ | ⟨_ | _ | _, mid⟩
    case succ.some.ok.true =>
      rw [entering] at ran
      exact inductionHypothesis ran
    all_goals
      rw [entering] at ran
      exact ran

theorem on_constructWithin_spent (spent : heap.cell? id = some (.new .spent)) (depth : Nat) :
    (constructWithin engine id depth).on heap =
      some (.error (.internal .notConstructed), heap) := by
  cases depth <;> exact Action.on_bind_error (on_enterFactory_spent spent) _

theorem on_construct_spent (spent : heap.cell? id = some (.new .spent)) :
    (construct engine id).on heap = some (.error (.internal .notConstructed), heap) :=
  on_constructWithin_spent spent engine.depth

section Pending

variable (pending : heap.cell? id = some (.new (.pending factory)))

include pending

theorem on_construct_error {fault : Fault}
    (ran : (engine.run factory).on (heap.entered id) = some (.error fault, after)) :
    (construct engine id).on heap = some (.error fault, after) := by
  have entering : (enterFactory engine id).on heap = some (.error fault, after) := by
    rw [on_enterFactory_pending pending]
    exact Action.on_bind_error ran _
  unfold construct
  cases engine.depth <;> exact Action.on_bind_error entering _

variable (ran : (engine.run factory).on (heap.entered id) = some (.ok built, after))
  (spent : after.cell? id = some (.new .spent))

include ran spent

theorem on_enterFactory_built :
    (enterFactory engine id).on heap = some (.ok true, after.setCell id (.new built)) := by
  rw [on_enterFactory_pending pending, Action.on_bind_ok ran]
  exact Action.on_bind_ok (on_install spent rfl built) _

theorem on_constructWithin_built (depth : Nat) :
    (constructWithin engine id (depth + 1)).on heap =
      (constructWithin engine id depth).on (after.setCell id (.new built)) :=
  Action.on_bind_ok (on_enterFactory_built pending ran spent) _

theorem on_construct_built {ended : Except Fault Unit × Heap}
    (constructing : (construct engine id).on heap = some ended) :
    (construct engine id).on (after.setCell id (.new built)) = some ended := by
  unfold construct at constructing ⊢
  cases depth : engine.depth with
  | zero =>
    rw [depth] at constructing
    have exhausted : (constructWithin engine id 0).on heap = none :=
      Action.on_bind_ok (on_enterFactory_built pending ran spent) _
    rw [exhausted] at constructing
    cases constructing
  | succ below =>
    rw [depth, on_constructWithin_built pending ran spent] at constructing
    exact on_constructWithin_succ constructing

theorem on_construct_once (deep : 0 < engine.depth) (eager : built.isLazy = false) :
    (construct engine id).on heap = some (.ok (), after.setCell id (.new built)) := by
  have installed : (after.setCell id (.new built)).cell? id = some (.new built) := by
    rw [cell?_setCell spent, if_pos rfl]
  unfold construct
  cases depth : engine.depth with
  | zero =>
    rw [depth] at deep
    cases deep
  | succ below =>
    rw [on_constructWithin_built pending ran spent]
    exact (Constructed.of_new installed eager).on_constructWithin engine below

end Pending

/-- An object is constructed before it is amended, and then the amended object is stored. -/
theorem exists_of_on_judge {α : Type} {change : Object → Except Fault (α × Object)} {result : α}
    (ran : (judge engine id change).on heap = some (.ok result, after)) :
    ∃ mid cell object next, (construct engine id).on heap = some (.ok (), mid) ∧
      mid.grasp id = .ok (cell, object) ∧ change object = .ok (result, next) ∧
        after = mid.store id cell next := by
  obtain ⟨_, mid, constructing, ran⟩ := Action.exists_of_on_bind_ok ran
  have constructed := constructed_of_on_construct constructing
  have amended : (judge engine id change).on mid = some (.ok result, after) :=
    (Action.on_bind_ok (constructed.on_construct engine) _).trans ran
  rw [constructed.ready.on_judge] at amended
  cases grasped : mid.grasp id with
  | error fault =>
    rw [grasped] at amended
    cases amended
  | ok held =>
    obtain ⟨cell, object⟩ := held
    simp only [grasped] at amended
    cases changed : change object with
    | error fault =>
      rw [changed] at amended
      cases amended
    | ok ended =>
      obtain ⟨answer, next⟩ := ended
      rw [changed] at amended
      cases amended
      exact ⟨mid, cell, object, next, constructing, grasped, changed, rfl⟩

/-- Whether on a heap an action constructs an object before anything else. -/
def Constructs {α : Type} (engine : Engine) (id : ObjectId) (heap : Heap) (action : Action α) :
    Prop :=
  action.on heap = (construct engine id >>= fun _ => action).on heap

namespace Constructs

variable {α β : Type} {action : Action α}

theorem of_construct (heap : Heap) (rest : Unit → Action α) :
    Constructs engine id heap (construct engine id >>= rest) := by
  unfold Constructs
  rw [Action.on_bind, Action.on_bind]
  rcases constructing : (construct engine id).on heap with _ | ⟨_ | _, after⟩
  case some.ok =>
    -- What is constructed may be constructed again, for that does nothing.
    have constructed := constructed_of_on_construct constructing
    exact (Action.on_bind_ok (constructed.on_construct engine) rest).symm
  all_goals rfl

theorem bind (constructs : Constructs engine id heap action) (next : α → Action β) :
    Constructs engine id heap (action >>= next) := by
  unfold Constructs at constructs ⊢
  rw [Action.on_bind, constructs, Action.on_bind, Action.on_bind]
  rcases (construct engine id).on heap with _ | ⟨_ | _, after⟩
  case some.ok => exact (Action.on_bind action next after).symm
  all_goals rfl

theorem map (constructs : Constructs engine id heap action) (f : α → β) :
    Constructs engine id heap (f <$> action) :=
  constructs.bind fun result => pure (f result)

theorem read : Constructs engine id heap (read engine id) := of_construct heap _

theorem inspect : Constructs engine id heap (inspect engine id) := read.bind _

theorem inspectAlone : Constructs engine id heap (inspectAlone engine id) := of_construct heap _

theorem amend (mutation : Mutation Object α) :
    Constructs engine id heap (amend engine id mutation) := of_construct heap _

theorem relink (prototype : Option ObjectId) :
    Constructs engine id heap (relink engine id prototype) := amend _

theorem judge (change : Object → Except Fault (α × Object)) :
    Constructs engine id heap (judge engine id change) := of_construct heap _

theorem call (this : Value) (args : List Value) :
    Constructs engine id heap (call engine (.object id) this args) := read.bind _

/-- An action that looks at the heap first constructs the object, if the construction does not
change what it looks for. -/
theorem of_get {next : Heap → Action α} (constructs : Constructs engine id heap (next heap))
    (same : ∀ after, (construct engine id).on heap = some (.ok (), after) →
      next after = next heap) :
    Constructs engine id heap (MonadState.get >>= next) := by
  unfold Constructs at constructs ⊢
  rw [Action.on_bind_ok (Action.on_get heap), constructs, Action.on_bind, Action.on_bind]
  rcases constructing : (construct engine id).on heap with _ | ⟨_ | _, after⟩
  case some.ok =>
    have looked := Action.on_bind_ok (Action.on_get after) next
    rw [same after constructing] at looked
    exact looked.symm
  all_goals rfl

theorem on_spent (constructs : Constructs engine id heap action)
    (spent : heap.cell? id = some (.new .spent)) :
    action.on heap = some (.error (.internal .notConstructed), heap) := by
  rw [constructs]
  exact Action.on_bind_error (on_construct_spent spent) _

section Pending

variable (constructs : Constructs engine id heap action)
  (pending : heap.cell? id = some (.new (.pending factory)))

include constructs pending

theorem on_error {fault : Fault}
    (ran : (engine.run factory).on (heap.entered id) = some (.error fault, after)) :
    action.on heap = some (.error fault, after) := by
  rw [constructs]
  exact Action.on_bind_error (on_construct_error pending ran) _

variable (ran : (engine.run factory).on (heap.entered id) = some (.ok built, after))
  (spent : after.cell? id = some (.new .spent))

include ran spent

theorem on_built {ended : Except Fault α × Heap} (acted : action.on heap = some ended)
    (constructsBuilt : Constructs engine id (after.setCell id (.new built)) action) :
    action.on (after.setCell id (.new built)) = some ended := by
  rw [constructs, Action.on_bind] at acted
  rw [constructsBuilt, Action.on_bind]
  cases constructing : (construct engine id).on heap with
  | none =>
    rw [constructing] at acted
    cases acted
  | some constructed =>
    rw [on_construct_built pending ran spent constructing]
    rw [constructing] at acted
    exact acted

theorem on_once (deep : 0 < engine.depth) (eager : built.isLazy = false) :
    action.on heap = action.on (after.setCell id (.new built)) := by
  rw [constructs]
  exact Action.on_bind_ok (on_construct_once pending ran spent deep eager) _

end Pending

end Constructs

end Heap

end ObjectModel
