import ObjectModel.Proofs.Heap.Direct
import ObjectModel.Proofs.Heap.Lazy

/-!
# Heaps that are alike but for laziness

A factory that does nothing but yield a representation makes its lazy object as good as that
representation.  Representations are alike if they are the same once such factories are unwrapped,
down to the code of functions and of the other factories, where the representations that are
allocated have to be alike again.  Heaps are alike if all of their objects are.
-/

namespace ObjectModel

/-- Whether something holds for all depths but finitely many. -/
def Eventually (holds : Nat → Prop) : Prop := ∃ bound, ∀ depth, bound ≤ depth → holds depth

namespace Eventually

variable {holds other : Nat → Prop}

theorem of_forall (always : ∀ depth, holds depth) : Eventually holds :=
  ⟨0, fun depth _ => always depth⟩

theorem mono (eventually : Eventually holds) (implies : ∀ depth, holds depth → other depth) :
    Eventually other := by
  obtain ⟨bound, beyond⟩ := eventually
  exact ⟨bound, fun depth above => implies depth (beyond depth above)⟩

theorem and (eventually : Eventually holds) (another : Eventually other) :
    Eventually fun depth => holds depth ∧ other depth := by
  obtain ⟨bound, beyond⟩ := eventually
  obtain ⟨boundOther, beyondOther⟩ := another
  refine ⟨max bound boundOther, fun depth above => ⟨beyond depth ?_, beyondOther depth ?_⟩⟩
  · exact Nat.le_trans (Nat.le_max_left _ _) above
  · exact Nat.le_trans (Nat.le_max_right _ _) above

end Eventually

/-- Whether a factory, on any heap, does nothing but yield a representation. -/
structure Code.Yields (factory : Code .representation) (built : Representation) : Prop where
  only : ∀ {depth heap ended}, (factory.run depth).on heap = some ended → ended = (.ok built, heap)
  ends : ∀ heap, Eventually fun depth => (factory.run depth).on heap = some (.ok built, heap)

theorem Code.Yields.build (built : Representation) : (Code.build built).Yields built where
  only ran := (Option.some.inj ran).symm
  ends _ := .of_forall fun _ => rfl

/-- Whether a representation becomes another one when it is constructed as far as factories do
nothing but yield, or not quite as far. -/
inductive Representation.Unwraps : Representation → Representation → Prop
  | refl (representation : Representation) : Unwraps representation representation
  | step {factory : Code .representation} {built bare : Representation}
      (yields : factory.Yields built) (onward : Unwraps built bare) :
      Unwraps (.pending factory) bare

def Representation.carriesCode : Representation → Bool
  | .function .. | .pending _ => true
  | .ordinary _ | .array _ | .string _ | .host _ | .spent => false

mutual

/-- Whether representations differ in laziness only. -/
inductive Representation.Alike : Representation → Representation → Prop
  | unwrapping {representation image bare bareImage : Representation}
      (left : representation.Unwraps bare) (right : image.Unwraps bareImage)
      (congruent : Representation.Congruent bare bareImage) :
      Representation.Alike representation image

/-- Whether representations are the same but for laziness in their code. -/
inductive Representation.Congruent : Representation → Representation → Prop
  | codeless {representation : Representation} (codeless : representation.carriesCode = false) :
      Representation.Congruent representation representation
  | function {name : String} {body image : Value → List Value → Code (.reply .value)}
      {base : OrdinaryObject}
      (bodies : ∀ this args, Code.Alike (body this args) (image this args)) :
      Representation.Congruent (.function name body base) (.function name image base)
  | pending {factory image : Code .representation} (factories : Code.Alike factory image) :
      Representation.Congruent (.pending factory) (.pending image)

/-- Whether code differs only in the laziness of what it allocates and builds. -/
inductive Code.Alike : {goal : Goal} → Code goal → Code goal → Prop
  | give {reply : Reply} (result : reply.Result) : Code.Alike (.give result) (.give result)
  | build {representation image : Representation}
      (built : Representation.Alike representation image) :
      Code.Alike (.build representation) (.build image)
  | fail {goal : Goal} (fault : Fault) : Code.Alike (.fail fault : Code goal) (.fail fault)
  | perform {reply : Reply} {goal : Goal} {command image : Command reply}
      {next nextImage : Except Fault reply.Result → Code goal}
      (commands : Command.Alike command image)
      (onward : ∀ outcome, Code.Alike (next outcome) (nextImage outcome)) :
      Code.Alike (.perform command next) (.perform image nextImage)

/-- Whether commands differ only in the laziness of what they are given. -/
inductive Command.Alike : {reply : Reply} → Command reply → Command reply → Prop
  | codeless {reply : Reply} {command : Command reply} (codeless : command.carriesCode = false) :
      Command.Alike command command
  | allocate {representation image : Representation}
      (alike : Representation.Alike representation image) :
      Command.Alike (.allocate representation) (.allocate image)
  | replace {id : ObjectId} {representation image : Representation}
      (alike : Representation.Alike representation image) :
      Command.Alike (.replace id representation) (.replace id image)
  | hold {reply : Reply} {id : ObjectId} {exclusive : Bool} {body image : Code (.reply reply)}
      (bodies : Code.Alike body image) :
      Command.Alike (.hold id exclusive body) (.hold id exclusive image)

end

mutual

theorem Representation.Alike.symm {representation image : Representation} :
    representation.Alike image → image.Alike representation
  | .unwrapping left right congruent => .unwrapping right left congruent.symm

theorem Representation.Congruent.symm {representation image : Representation} :
    representation.Congruent image → image.Congruent representation
  | .codeless codeless => .codeless codeless
  | .function bodies => .function fun this args => (bodies this args).symm
  | .pending factories => .pending factories.symm

theorem Code.Alike.symm {goal : Goal} {code image : Code goal} :
    code.Alike image → image.Alike code
  | .give result => .give result
  | .build built => .build built.symm
  | .fail fault => .fail fault
  | .perform commands onward => .perform commands.symm fun outcome => (onward outcome).symm

theorem Command.Alike.symm {reply : Reply} {command image : Command reply} :
    command.Alike image → image.Alike command
  | .codeless codeless => .codeless codeless
  | .allocate alike => .allocate alike.symm
  | .replace alike => .replace alike.symm
  | .hold bodies => .hold bodies.symm

end

/-- Induction along code that is alike, whatever becomes of the code that it is given. -/
theorem Code.Alike.induct {motive : {goal : Goal} → Code goal → Code goal → Prop}
    (give : ∀ {reply : Reply} (result : reply.Result), motive (.give result) (.give result))
    (build : ∀ {representation image : Representation}, representation.Alike image →
      motive (.build representation) (.build image))
    (fail : ∀ {goal : Goal} (fault : Fault), motive (.fail fault : Code goal) (.fail fault))
    (perform : ∀ {reply : Reply} {goal : Goal} {command image : Command reply}
      {next nextImage : Except Fault reply.Result → Code goal}, command.Alike image →
        (∀ outcome, motive (next outcome) (nextImage outcome)) →
          motive (.perform command next) (.perform image nextImage))
    {goal : Goal} {code image : Code goal} : code.Alike image → motive code image
  | .give result => give result
  | .build built => build built
  | .fail fault => fail fault
  | .perform commands onward =>
    perform commands fun outcome => induct give build fail perform (onward outcome)

mutual

theorem Representation.congruent_self :
    (representation : Representation) → representation.Congruent representation
  | .function _ body _ => .function fun this args => (body this args).alike_self
  | .pending factory => .pending factory.alike_self
  | .ordinary _ => .codeless rfl
  | .array _ => .codeless rfl
  | .string _ => .codeless rfl
  | .host _ => .codeless rfl
  | .spent => .codeless rfl

theorem Code.alike_self : {goal : Goal} → (code : Code goal) → code.Alike code
  | _, .give result => .give result
  | _, .build representation =>
    .build (.unwrapping (.refl _) (.refl _) representation.congruent_self)
  | _, .fail fault => .fail fault
  | _, .perform command next => .perform command.alike_self fun outcome => (next outcome).alike_self

theorem Command.alike_self : {reply : Reply} → (command : Command reply) → command.Alike command
  | _, .allocate representation =>
    .allocate (.unwrapping (.refl _) (.refl _) representation.congruent_self)
  | _, .replace _ representation =>
    .replace (.unwrapping (.refl _) (.refl _) representation.congruent_self)
  | _, .hold _ _ body => .hold body.alike_self
  | _, .size => .codeless rfl
  | _, .get .. => .codeless rfl
  | _, .getOwn .. => .codeless rfl
  | _, .describe .. => .codeless rfl
  | _, .put .. => .codeless rfl
  | _, .define .. => .codeless rfl
  | _, .delete .. => .codeless rfl
  | _, .has .. => .codeless rfl
  | _, .hasOwn .. => .codeless rfl
  | _, .enumerate .. => .codeless rfl
  | _, .isExtensible _ => .codeless rfl
  | _, .preventExtensions _ => .codeless rfl
  | _, .prototype _ => .codeless rfl
  | _, .setPrototype .. => .codeless rfl
  | _, .elementCount _ => .codeless rfl
  | _, .elementAt .. => .codeless rfl
  | _, .swap .. => .codeless rfl
  | _, .toTree _ => .codeless rfl
  | _, .isCallable _ => .codeless rfl
  | _, .call .. => .codeless rfl
  | _, .inspect _ => .codeless rfl
  | _, .inspectAlone _ => .codeless rfl
  | _, .mutate .. => .codeless rfl
  | _, .relink .. => .codeless rfl
  | _, .resize .. => .codeless rfl
  | _, .share .. => .codeless rfl
  | _, .edit .. => .codeless rfl
  | _, .note _ => .codeless rfl

end

namespace Representation

variable {representation image built : Representation} {factory : Code .representation}

theorem alike_self (representation : Representation) : representation.Alike representation :=
  .unwrapping (.refl _) (.refl _) representation.congruent_self

theorem Alike.of_yields (yields : factory.Yields built) (alike : built.Alike image) :
    Alike (.pending factory) image := by
  cases alike with
  | unwrapping left right congruent => exact .unwrapping (.step yields left) right congruent

theorem Unwraps.eq_of_eager (unwraps : representation.Unwraps image)
    (eager : representation.isLazy = false) : image = representation := by
  cases unwraps with
  | refl => rfl
  | step => cases eager

/-- Representations that are alike and not lazy are the same but for laziness in their code. -/
theorem Alike.congruent (alike : representation.Alike image)
    (eager : representation.isLazy = false) (eagerImage : image.isLazy = false) :
    representation.Congruent image := by
  cases alike with
  | unwrapping left right congruent =>
    rw [left.eq_of_eager eager, right.eq_of_eager eagerImage] at congruent
    exact congruent

theorem Congruent.alike (congruent : representation.Congruent image) :
    representation.Alike image := .unwrapping (.refl _) (.refl _) congruent

theorem Congruent.represent (congruent : representation.Congruent image) (object : Object) :
    (Heap.represent representation object).Congruent (Heap.represent image object) := by
  cases congruent with
  | codeless codeless =>
    apply Congruent.codeless
    cases representation
    case function => cases codeless
    case pending => cases codeless
    all_goals cases object <;> rfl
  | function bodies =>
    cases object <;> first | exact .codeless rfl | exact .function bodies
  | pending factories =>
    cases object <;> first | exact .codeless rfl | exact .pending factories

theorem Congruent.view?_eq (congruent : representation.Congruent image) {heap other : Heap}
    (collections : other.collections = heap.collections) :
    other.view? image = heap.view? representation := by
  cases congruent with
  | codeless _ =>
    unfold Heap.view? Heap.collection?
    rw [collections]
  | function _ => rfl
  | pending _ => rfl

end Representation

/-- Whether cells differ only in the laziness of what they hold; nobody holds lazy objects. -/
structure ObjectCell.Alike (cell image : ObjectCell Representation) : Prop where
  value : cell.value.Alike image.value
  borrow : image.borrow = cell.borrow
  free : cell.value.isLazy = true ∨ image.value.isLazy = true → cell.borrow = .free

theorem ObjectCell.Alike.symm {cell image : ObjectCell Representation} (alike : cell.Alike image) :
    image.Alike cell where
  value := alike.value.symm
  borrow := alike.borrow.symm
  free lazy := alike.borrow.trans (alike.free lazy.symm)

def Event.isFactory : Event → Bool
  | .factory _ => true
  | .call .. | .step _ => false

namespace Heap

variable {heap image after : Heap} {id : ObjectId} {cell cellImage : ObjectCell Representation}
  {factory : Code .representation} {built : Representation}

def happenings (heap : Heap) : List Event := heap.log.filter fun event => !event.isFactory

/-- Whether heaps differ in the laziness of their objects only. -/
structure Alike (heap image : Heap) : Prop where
  cells : ∀ id, Option.Rel ObjectCell.Alike (heap.cell? id) (image.cell? id)
  size : image.size = heap.size
  policy : image.policy = heap.policy
  collections : image.collections = heap.collections
  names : image.names = heap.names
  happenings : image.happenings = heap.happenings

namespace Alike

theorem symm (alike : heap.Alike image) : image.Alike heap where
  cells id := by
    have cells := alike.cells id
    cases cell : heap.cell? id <;> cases cellImage : image.cell? id <;>
      rw [cell, cellImage] at cells <;> cases cells
    case none.none => exact .none
    case some.some.some alike => exact .some alike.symm
  size := alike.size.symm
  policy := alike.policy.symm
  collections := alike.collections.symm
  names := alike.names.symm
  happenings := alike.happenings.symm

/-- A heap is like itself if nobody holds its lazy objects. -/
theorem of_steady (steady : heap.Steady) : heap.Alike heap where
  cells id := by
    cases found : heap.cell? id with
    | none => exact .none
    | some cell =>
      refine .some ⟨cell.value.alike_self, rfl, fun lazy => ?_⟩
      exact steady id cell found (or_self_iff.mp lazy)
  size := rfl
  policy := rfl
  collections := rfl
  names := rfl
  happenings := rfl

theorem cases (alike : heap.Alike image) (id : ObjectId) :
    heap.cell? id = none ∧ image.cell? id = none ∨
      ∃ cell cellImage, heap.cell? id = some cell ∧ image.cell? id = some cellImage ∧
        cell.Alike cellImage := by
  have cells := alike.cells id
  cases found : heap.cell? id with
  | none =>
    rw [found] at cells
    cases foundImage : image.cell? id with
    | none => exact .inl ⟨rfl, rfl⟩
    | some cellImage =>
      rw [foundImage] at cells
      cases cells
  | some cell =>
    rw [found] at cells
    cases foundImage : image.cell? id with
    | none =>
      rw [foundImage] at cells
      cases cells
    | some cellImage =>
      rw [foundImage] at cells
      cases cells with
      | some alike => exact .inr ⟨cell, cellImage, rfl, rfl, alike⟩

theorem record (alike : heap.Alike image) (event : Event) :
    (heap.record event).Alike (image.record event) where
  cells := alike.cells
  size := alike.size
  policy := alike.policy
  collections := alike.collections
  names := alike.names
  happenings := by
    have happenings := alike.happenings
    unfold Heap.happenings at happenings ⊢
    unfold Heap.record
    rw [List.filter_cons, List.filter_cons, happenings]

theorem setCell (alike : heap.Alike image) (found : heap.cell? id = some cell)
    (foundImage : image.cell? id = some cellImage) {next nextImage : ObjectCell Representation}
    (alikeNext : next.Alike nextImage) :
    (heap.setCell id next).Alike (image.setCell id nextImage) where
  cells other := by
    rw [cell?_setCell found, cell?_setCell foundImage]
    split
    next => exact .some alikeNext
    next => exact alike.cells other
  size := by
    unfold Heap.setCell Heap.size
    rw [Array.size_setIfInBounds, Array.size_setIfInBounds]
    exact alike.size
  policy := alike.policy
  collections := alike.collections
  names := alike.names
  happenings := alike.happenings

theorem setCollection (alike : heap.Alike image) (source : CollectionId)
    (collection : Collection) :
    (heap.setCollection source collection).Alike (image.setCollection source collection) where
  cells := alike.cells
  size := alike.size
  policy := alike.policy
  collections := by
    unfold Heap.setCollection
    rw [alike.collections]
  names := alike.names
  happenings := alike.happenings

theorem push (alike : heap.Alike image) {representation new : Representation}
    (alikeNew : representation.Alike new) :
    ({ heap with cells := heap.cells.push (.new representation) } : Heap).Alike
      { image with cells := image.cells.push (.new new) } where
  cells id := by
    have size : image.cells.size = heap.cells.size := alike.size
    rw [cell?_push, cell?_push, size]
    split
    next => exact .some ⟨alikeNew, rfl, fun _ => rfl⟩
    next => exact alike.cells id
  size := by
    unfold Heap.size
    rw [Array.size_push, Array.size_push]
    exact congrArg (· + 1) alike.size
  policy := alike.policy
  collections := alike.collections
  names := alike.names
  happenings := alike.happenings

theorem host (alike : heap.Alike image) (collections : Array Collection)
    (names : List (String × CollectionId)) :
    ({ heap with collections, names } : Heap).Alike { image with collections, names } where
  cells := alike.cells
  size := alike.size
  policy := alike.policy
  collections := rfl
  names := rfl
  happenings := alike.happenings

theorem store (alike : heap.Alike image) (found : heap.cell? id = some cell)
    (foundImage : image.cell? id = some cellImage) (alikeCell : cell.Alike cellImage)
    (eager : cell.value.isLazy = false) (eagerImage : cellImage.value.isLazy = false)
    (object : Object) : (heap.store id cell object).Alike (image.store id cellImage object) := by
  obtain ⟨value, borrow⟩ := cell
  obtain ⟨valueImage, borrowImage⟩ := cellImage
  have congruent : value.Congruent valueImage := alikeCell.value.congruent eager eagerImage
  have alikeNext : ObjectCell.Alike ⟨represent value object, borrow⟩
      ⟨represent valueImage object, borrowImage⟩ := by
    refine ⟨(congruent.represent object).alike, alikeCell.borrow, fun lazy => ?_⟩
    simp only at lazy
    rw [isLazy_represent _ object eager, isLazy_represent _ object eagerImage] at lazy
    cases or_self_iff.mp lazy
  have replaced := alike.setCell found foundImage alikeNext
  unfold Heap.store
  cases congruent with
  | codeless codeless =>
    cases value
    case host view =>
      simp only
      cases shown? object with
      | some collection => exact replaced.setCollection view.source collection
      | none => exact replaced
    all_goals exact replaced
  | function _ => exact replaced
  | pending _ => exact replaced

end Alike

/-- The heap after the factory of a handle has done nothing but yield a representation. -/
def unwrapped (heap : Heap) (id : ObjectId) (built : Representation) : Heap :=
  (heap.entered id).setCell id (.new built)

theorem cell?_unwrapped (pending : heap.cell? id = some (.new (.pending factory)))
    (built : Representation) (other : ObjectId) :
    (heap.unwrapped id built).cell? other =
      if other = id then some (.new built) else heap.cell? other := by
  have spent : (heap.entered id).cell? id = some (.new .spent) := by
    rw [cell?_entered pending, if_pos rfl]
  unfold unwrapped
  rw [cell?_setCell spent, cell?_entered pending]
  split <;> rfl

/-- To unwrap an object of a heap leaves it like what it was like, if the object still is. -/
theorem Alike.unwrap (alike : heap.Alike image)
    (pending : image.cell? id = some (.new (.pending factory))) (found : heap.cell? id = some cell)
    (alikeBuilt : cell.Alike (.new built)) : heap.Alike (image.unwrapped id built) where
  cells other := by
    rw [cell?_unwrapped pending]
    split
    next here =>
      rw [here, found]
      exact .some alikeBuilt
    next => exact alike.cells other
  size := by
    have size : (image.unwrapped id built).size = image.size := by
      unfold unwrapped Heap.setCell Heap.size
      rw [Array.size_setIfInBounds]
      exact Array.size_setIfInBounds
    exact size.trans alike.size
  policy := alike.policy
  collections := alike.collections
  names := alike.names
  happenings := by
    rw [← alike.happenings]
    rfl

end Heap

end ObjectModel
