import ObjectModel.Proofs.Heap.Simulation
import ObjectModel.Proofs.Heap.Unwrapping

/-!
# Operations on heaps that are alike

Every operation constructs an object before it looks at it, and what it sees then is the same on
heaps that are alike.  So whatever a command does on a heap, it does on a heap that is alike.
-/

namespace ObjectModel

open ObjectModel.Action (Mirrors MirrorsFrom)

/-- To be mirrored with the same results is followed from one action to the next. -/
def Action.mirroring : Simulation Nat where
  related action family := action.Mirrors Eq family
  enough _ depths := Unbounded depths
  pure _ := .pure rfl
  throw := .throw
  bind mirrors mirrorsNext := mirrors.bind_eq mirrorsNext
  policy := by
    apply Mirrors.get.bind
    intro heap image alike
    exact .pure alike.policy.symm
  exhausted := .exhausted
  descend := by
    intro _ depths unbounded
    refine ⟨fun depth => depths depth - 1, unbounded.pred, fun family mirrors => ?_⟩
    intro heap image alike
    refine MirrorsFrom.of_image ?_ (mirrors heap image alike)
    refine (unbounded 1).mono fun depth enough => ?_
    rw [Nat.sub_add_cancel enough]

namespace ObjectCell.Alike

variable {cell image : ObjectCell Representation}

theorem withBorrow (alike : cell.Alike image) (eager : cell.value.isLazy = false)
    (eagerImage : image.value.isLazy = false) (borrow : Borrow) :
    ObjectCell.Alike { cell with borrow } { image with borrow } where
  value := alike.value
  borrow := rfl
  free lazy := by
    simp only [eager, eagerImage, Bool.false_eq_true, or_self] at lazy

theorem held (alike : cell.Alike image) (eager : cell.value.isLazy = false)
    (eagerImage : image.value.isLazy = false) (exclusive : Bool) :
    Corresponds ObjectCell.Alike
      (if exclusive then cell.borrowExclusive else cell.borrowShared)
      (if exclusive then image.borrowExclusive else image.borrowShared) := by
  unfold borrowExclusive borrowShared
  rw [alike.borrow]
  have withBorrow := alike.withBorrow eager eagerImage
  cases exclusive <;> cases cell.borrow <;>
    first | exact .ok (withBorrow _) | exact .error _

theorem release (alike : cell.Alike image) : cell.release.Alike image.release := by
  have free := alike.free
  unfold ObjectCell.release
  rw [alike.borrow]
  split
  next held =>
    refine ⟨alike.value, rfl, fun lazy => ?_⟩
    rw [held] at free
    cases free lazy
  next => exact ⟨alike.value, rfl, fun _ => rfl⟩

end ObjectCell.Alike

namespace Heap

variable {heap image : Heap} {representation new : Representation}

theorem Alike.viewed (alike : heap.Alike image) (congruent : representation.Congruent new) :
    Corresponds Eq (heap.viewed representation) (image.viewed new) := by
  unfold Heap.viewed
  rw [congruent.view?_eq alike.collections]
  cases heap.view? representation with
  | some object => exact .ok rfl
  | none => exact .error _

theorem mirrors_viewOf (congruent : representation.Congruent new) :
    (viewOf representation).Mirrors Eq fun _ => viewOf new :=
  fun heap image alike => .of_on (on_viewOf heap _) (fun _ => on_viewOf image _)
    (alike.viewed congruent) alike

theorem mirrors_release {α : Type} (id : ObjectId) {outcome outcomeImage : Except Fault α}
    (corresponds : Corresponds Eq outcome outcomeImage) :
    (cellOf id >>= fun cell => (modify (·.setCell id cell.release) : Action PUnit) >>= fun _ =>
      Action.ofExcept outcome).Mirrors Eq fun _ =>
        cellOf id >>= fun cell => (modify (·.setCell id cell.release) : Action PUnit) >>= fun _ =>
          Action.ofExcept outcomeImage := by
  intro heap image alike
  refine .bind_reading alike (on_cellOf heap id) (fun _ => on_cellOf image id) (alike.held id) ?_
  intro cell cellImage held heldImage alikeCell
  have released := alike.setCell (cell?_of_held held) (cell?_of_held heldImage) alikeCell.release
  exact .of_on rfl (fun _ => rfl) corresponds released

theorem mirrors_allocate (alike : representation.Alike new) :
    (allocate representation).Mirrors Eq fun _ => allocate new := by
  intro heap image alikeHeap
  have size : (⟨image.size⟩ : ObjectId) = ⟨heap.size⟩ := congrArg ObjectId.mk alikeHeap.size
  exact .of_on rfl (fun _ => rfl) (.ok size.symm) (alikeHeap.push alike)

theorem mirrors_share (collection : Collection) (name : Option String) :
    (share collection name).Mirrors Eq fun _ => share collection name := by
  intro heap image alike
  have shared := alike.host (heap.collections.push collection)
    ((name.map fun name => (name, ⟨heap.collections.size⟩)).toList ++ heap.names)
  have ran : (share collection name).on image = some (.ok ⟨heap.collections.size⟩,
      { image with
        collections := heap.collections.push collection
        names :=
          (name.map fun name => (name, ⟨heap.collections.size⟩)).toList ++ heap.names }) := by
    rw [← alike.collections, ← alike.names]
    rfl
  exact .of_on rfl (fun _ => ran) (.ok rfl) shared

theorem mirrors_edit (name : String) (change : CollectionEdit) :
    (edit name change).Mirrors Eq fun _ => edit name change := by
  apply Mirrors.get.bind
  intro heap image alike
  have named : image.named? name = heap.named? name := by
    unfold named?
    rw [alike.names]
  have shared (source : CollectionId) : image.collection? source = heap.collection? source := by
    unfold collection?
    rw [alike.collections]
  simp only [named, shared]
  cases heap.named? name with
  | none => exact .pure rfl
  | some source =>
    have edited : Heap.Alike
        (((heap.collection? source).map (·.edit change)).elim heap (heap.setCollection source))
        (((heap.collection? source).map (·.edit change)).elim image
          (image.setCollection source)) := by
      cases (heap.collection? source).map (·.edit change) with
      | none => exact alike
      | some collection => exact alike.setCollection source collection
    exact (Mirrors.set edited).bind_eq fun _ => .pure rfl

end Heap

namespace Engine.Mirrors

variable {engine : Engine} {engines : Nat → Engine} (mirrors : engine.Mirrors engines)

include mirrors

theorem mirrors_read (id : ObjectId) :
    (Heap.read engine id).Mirrors Representation.Congruent fun depth =>
      Heap.read (engines depth) id := by
  apply mirrors.mirrors_open
  intro heap image cell cellImage alike _ _ alikeCell eager eagerImage
  have congruent := alikeCell.value.congruent eager eagerImage
  exact .of_on (Action.on_ofExcept _ heap) (fun _ => Action.on_ofExcept _ image)
    (alikeCell.read congruent) alike

theorem mirrors_inspectAlone (id : ObjectId) :
    (Heap.inspectAlone engine id).Mirrors Eq fun depth => Heap.inspectAlone (engines depth) id := by
  apply mirrors.mirrors_open
  intro heap image cell cellImage alike _ _ alikeCell eager eagerImage
  have congruent := alikeCell.value.congruent eager eagerImage
  have looked := (Mirrors.ofExcept (alikeCell.readForWriting congruent)).bind
    fun _ _ congruent => Heap.mirrors_viewOf congruent
  exact looked heap image alike

theorem mirrors_call (function this : Value) (args : List Value) :
    (Heap.call engine function this args).Mirrors Eq fun depth =>
      Heap.call (engines depth) function this args := by
  cases function
  case object id =>
    apply (mirrors.mirrors_read id).bind
    intro representation image congruent
    cases congruent with
    | function bodies =>
      have recorded (name : String) := Action.Mirrors.modify fun alike =>
        Heap.Alike.record alike (.call name this args)
      exact (recorded _).bind_eq fun _ => mirrors.run (bodies this args)
    | pending _ => exact .throw _
    | codeless codeless =>
      cases representation
      case function => cases codeless
      all_goals exact .throw _
  all_goals exact .throw _

theorem serves : Action.mirroring.Serves engine engines where
  depth := mirrors.unbounded
  inspect id := (mirrors.mirrors_read id).bind fun _ _ congruent => Heap.mirrors_viewOf congruent
  inspectAlone := mirrors.mirrors_inspectAlone
  array? id := by
    apply (mirrors.mirrors_read id).bind
    intro representation image congruent
    cases congruent <;> exact .pure rfl
  isFunction id := by
    apply (mirrors.mirrors_read id).bind
    intro representation image congruent
    cases congruent <;> exact .pure rfl
  call := mirrors.mirrors_call

theorem mirrors_judge {α : Type} (id : ObjectId) (change : Object → Except Fault (α × Object)) :
    (Heap.judge engine id change).Mirrors Eq fun depth =>
      Heap.judge (engines depth) id change := by
  apply mirrors.mirrors_open
  intro heap image cell cellImage alike found foundImage alikeCell eager eagerImage
  have congruent := alikeCell.value.congruent eager eagerImage
  refine .bind_reading alike (Action.on_ofExcept _ heap) (fun _ => Action.on_ofExcept _ image)
    (alikeCell.readForWriting congruent) ?_
  intro representation representationImage _ _ related
  refine .bind_reading alike (Heap.on_viewOf heap _) (fun _ => Heap.on_viewOf image _)
    (alike.viewed related) ?_
  rintro object _ _ _ rfl
  cases changed : change object with
  | error fault => exact .of_on rfl (fun _ => rfl) (.error fault) alike
  | ok ended =>
    have stored := alike.store found foundImage alikeCell eager eagerImage ended.2
    exact .of_on rfl (fun _ => rfl) (.ok rfl) stored

theorem mirrors_hold {form : Reply} (id : ObjectId) (exclusive : Bool)
    {body new : Code (.reply form)} (bodies : body.Alike new) :
    (Heap.hold engine id exclusive body).Mirrors Eq fun depth =>
      Heap.hold (engines depth) id exclusive new := by
  apply mirrors.mirrors_open
  intro heap image cell cellImage alike found foundImage alikeCell eager eagerImage
  refine .bind_reading alike (Action.on_ofExcept _ heap) (fun _ => Action.on_ofExcept _ image)
    (alikeCell.held eager eagerImage exclusive) ?_
  intro held heldImage _ _ alikeHeld
  have taken : Action.MirrorsFrom heap image Eq (modify (·.setCell id held) : Action PUnit)
      fun _ => (modify (·.setCell id heldImage) : Action PUnit) :=
    .of_on rfl (fun _ => rfl) (.ok rfl) (alike.setCell found foundImage alikeHeld)
  apply taken.bind
  intro _ _ _
  apply (mirrors.run bodies).attempt.bind
  intro outcome outcomeImage corresponds
  exact Heap.mirrors_release id corresponds

theorem mirrors_replace (id : ObjectId) {representation new : Representation}
    (alike : representation.Alike new) :
    (Heap.replace engine id representation).Mirrors Eq fun depth =>
      Heap.replace (engines depth) id new :=
  (mirrors.mirrors_construct id).bind_eq fun _ => Heap.mirrors_install alike id

/-- What is given no code does the same on heaps that are alike. -/
theorem amends : Action.mirroring.Amends .free engine engines where
  toServes := mirrors.serves
  amend id _ _ := mirrors.mirrors_judge id _
  size := Action.Mirrors.get.bind fun _ _ alike => .pure alike.size.symm
  share := Heap.mirrors_share
  edit := Heap.mirrors_edit
  note outcome := .modify fun alike => alike.record (.step outcome)

theorem mirrors_execute {reply : Reply} {command image : Command reply}
    (alike : command.Alike image) :
    (command.execute engine).Mirrors Eq fun depth => image.execute (engines depth) := by
  cases alike with
  | codeless codeless => exact mirrors.amends.execute codeless trivial
  | allocate alike => exact Heap.mirrors_allocate alike
  | replace alike => exact mirrors.mirrors_replace _ alike
  | hold bodies => exact mirrors.mirrors_hold _ _ bodies

end Engine.Mirrors

theorem Code.mirrors_runWith {execute : {reply : Reply} → Command reply → Action reply.Result}
    {executes : Nat → {reply : Reply} → Command reply → Action reply.Result}
    (mirrors : ∀ {reply : Reply} {command image : Command reply}, command.Alike image →
      (execute command).Mirrors Eq fun depth => executes depth image)
    {goal : Goal} {code image : Code goal} (alike : code.Alike image) :
    (code.runWith execute).Mirrors goal.Alike fun depth => image.runWith (executes depth) := by
  refine Code.Alike.induct
    (motive := fun {goal} code image =>
      (code.runWith execute).Mirrors goal.Alike fun depth => image.runWith (executes depth))
    ?_ ?_ ?_ ?_ alike
  · intro reply result
    exact .pure rfl
  · intro representation image built
    exact .pure built
  · intro goal fault
    exact .throw fault
  · intro reply goal command image next nextImage commands onward
    apply (mirrors commands).attempt.bind
    intro outcome outcomeImage corresponds
    rw [corresponds.eq_of_eq]
    exact onward outcome

/-- However deep the calls go, code that is alike runs alike, given room enough. -/
theorem Engine.mirrors_within (depth : Nat) : (Engine.within depth).Mirrors Engine.within := by
  have unbounded : Unbounded fun depth => (Engine.within depth).depth := by
    intro least
    refine ⟨least, fun depth above => ?_⟩
    cases depth <;> exact above
  -- One level is spent on the code itself.
  have settles : ∀ {factory : Code .representation} {built : Representation},
      factory.Yields built → ∀ heap,
        Action.Settles (fun depth => (Engine.within depth).run factory) heap (.ok built, heap) := by
    intro factory built yields heap
    obtain ⟨bound, beyond⟩ := yields.ends heap
    refine ⟨bound + 1, fun depth above => ?_⟩
    cases depth with
    | zero => cases above
    | succ depth => exact beyond depth (Nat.le_of_succ_le_succ above)
  induction depth with
  | zero =>
    refine ⟨unbounded, fun _ => .exhausted _, ?_, settles⟩
    intro factory built yields heap ended ran
    cases ran
  | succ depth inductionHypothesis =>
    refine ⟨unbounded, ?_, fun yields _ _ ran => yields.only ran, settles⟩
    intro goal code image alike heap other alikeHeaps
    refine (Code.mirrors_runWith inductionHypothesis.mirrors_execute alike heap other
      alikeHeaps).mono ?_
    rintro outcome after ⟨outcomeImage, afterImage, ⟨bound, beyond⟩, corresponds, alikeAfter⟩
    refine ⟨outcomeImage, afterImage, ⟨bound + 1, fun depth above => ?_⟩, corresponds, alikeAfter⟩
    cases depth with
    | zero => cases above
    | succ depth => exact beyond depth (Nat.le_of_succ_le_succ above)

end ObjectModel
