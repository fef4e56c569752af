import ObjectModel.Proofs.Heap.Lifecycle
import ObjectModel.Proofs.Heap.Mirrored

/-!
# Laziness cannot be observed

A lazy object whose factory does nothing but yield a representation might as well have been
allocated with that representation.  Programs that differ in nothing else, on heaps that differ in
nothing else, come to the same with every step: the same handles, results and faults, and the same
record of what happened, if entries into factories are left out.
-/

namespace ObjectModel

open ObjectModel.Action (Mirrors)

/-- What a command came to: its outcome, and what has happened by then, factories aside. -/
structure Told where
  reply : Reply
  outcome : Except Fault reply.Result
  happenings : List Event

/-- Run native code and tell what each of its commands came to, one after another, and what the code
itself came to in the end. -/
def Code.tellWith (execute : {reply : Reply} → Command reply → Action reply.Result) :
    {goal : Goal} → Code goal → Action (List Told × Except Fault goal.Result)
  | _, .give result => return ([], .ok result)
  | _, .build representation => return ([], .ok representation)
  | _, .fail fault => return ([], .error fault)
  | _, .perform command next => do
    let outcome ← Action.attempt (execute command)
    let happenings ← Heap.happenings <$> MonadState.get
    let (told, last) ← (next outcome).tellWith execute
    return (⟨_, outcome, happenings⟩ :: told, last)

def Code.tell (depth : Nat) {goal : Goal} (code : Code goal) :
    Action (List Told × Except Fault goal.Result) :=
  code.tellWith (Command.execute (.within depth))

/-- To tell what code comes to is to run it. -/
theorem Code.on_runWith (execute : {reply : Reply} → Command reply → Action reply.Result) :
    {goal : Goal} → (code : Code goal) → ∀ heap, (code.runWith execute).on heap =
      (code.tellWith execute >>= fun told => Action.ofExcept told.2).on heap
  | _, .give result, heap => rfl
  | _, .build representation, heap => rfl
  | _, .fail fault, heap => rfl
  | _, .perform command next, heap => by
    unfold Code.runWith Code.tellWith
    rw [Action.on_bind, bind_assoc, Action.on_bind]
    rcases (Action.attempt (execute command)).on heap with _ | ⟨_ | outcome, after⟩
    case some.ok =>
      have looked : (Heap.happenings <$> MonadState.get : Action (List Event)).on after =
        some (.ok after.happenings, after) := rfl
      have onward := (next outcome).on_runWith execute after
      simp only [bind_assoc, pure_bind]
      rw [onward, Action.on_bind_ok looked]
    all_goals rfl

theorem Code.on_run (depth : Nat) {goal : Goal} (code : Code goal) (heap : Heap) :
    (code.run depth).on heap =
      (code.tell depth >>= fun told => Action.ofExcept told.2).on heap :=
  code.on_runWith _ heap

/-- Whether two programs told the same, and came to results that are alike in the end. -/
def Goal.ToldAlike (goal : Goal) (told image : List Told × Except Fault goal.Result) : Prop :=
  image.1 = told.1 ∧ Corresponds goal.Alike told.2 image.2

theorem Code.mirrors_tellWith {execute : {reply : Reply} → Command reply → Action reply.Result}
    {executes : Nat → {reply : Reply} → Command reply → Action reply.Result}
    (mirrors : ∀ {reply : Reply} {command image : Command reply}, command.Alike image →
      (execute command).Mirrors Eq fun depth => executes depth image)
    {goal : Goal} {code image : Code goal} (alike : code.Alike image) :
    (code.tellWith execute).Mirrors goal.ToldAlike
      fun depth => image.tellWith (executes depth) := by
  refine Code.Alike.induct
    (motive := fun {goal} code image =>
      (code.tellWith execute).Mirrors goal.ToldAlike fun depth => image.tellWith (executes depth))
    ?_ ?_ ?_ ?_ alike
  · intro reply result
    exact .pure ⟨rfl, .ok rfl⟩
  · intro representation image built
    exact .pure ⟨rfl, .ok built⟩
  · intro goal fault
    exact .pure ⟨rfl, .error fault⟩
  · intro reply goal command image next nextImage commands onward
    apply (mirrors commands).attempt.bind
    intro outcome outcomeImage corresponds
    rw [corresponds.eq_of_eq]
    have happened : (Heap.happenings <$> MonadState.get : Action (List Event)).Mirrors Eq
        fun _ => Heap.happenings <$> MonadState.get :=
      Mirrors.get.bind fun _ _ alike => .pure alike.happenings.symm
    apply happened.bind_eq
    intro happenings
    apply (onward outcome).bind
    intro told toldImage alike
    exact .pure ⟨congrArg (_ :: ·) alike.1, alike.2⟩

theorem Code.Alike.tells {form : Reply} {program image : Code (.reply form)}
    (programs : program.Alike image) {heap heapImage : Heap} (heaps : heap.Alike heapImage)
    {depth : Nat} {told : List Told × Except Fault form.Result} {after : Heap}
    (ran : (program.tell depth).on heap = some (.ok told, after)) :
    ∃ afterImage, after.Alike afterImage ∧
      Eventually fun depth => (image.tell depth).on heapImage = some (.ok told, afterImage) := by
  have mirrors := Code.mirrors_tellWith
    (fun commands => (Engine.mirrors_within depth).mirrors_execute commands) programs
  obtain ⟨outcomeImage, afterImage, settles, corresponds, alike⟩ :=
    mirrors heap heapImage heaps _ _ ran
  cases corresponds with
  | @ok _ toldImage toldAlike =>
    have same : toldImage = told := Prod.ext toldAlike.1 toldAlike.2.eq_of_eq
    rw [same] at settles
    exact ⟨afterImage, alike, settles⟩

/-- Programs that differ only in the laziness of what they allocate, on heaps that differ only in
the laziness of what they hold, tell the same, step by step: what either of them comes to at some
depth, the other one comes to at all depths but finitely many, and the heaps are alike again. -/
theorem laziness_unobservable {form : Reply} {program image : Code (.reply form)}
    (programs : program.Alike image) {heap heapImage : Heap} (heaps : heap.Alike heapImage)
    (told : List Told × Except Fault form.Result) :
    (∀ {depth after}, (program.tell depth).on heap = some (.ok told, after) →
      ∃ afterImage, after.Alike afterImage ∧
        Eventually fun depth => (image.tell depth).on heapImage = some (.ok told, afterImage)) ∧
    (∀ {depth afterImage}, (image.tell depth).on heapImage = some (.ok told, afterImage) →
      ∃ after, after.Alike afterImage ∧
        Eventually fun depth => (program.tell depth).on heap = some (.ok told, after)) := by
  refine ⟨programs.tells heaps, fun ran => ?_⟩
  obtain ⟨after, alike, settles⟩ := programs.symm.tells heaps.symm ran
  exact ⟨after, alike.symm, settles⟩

/-- A program that allocates an object, gives it a property, makes it the prototype of functions and
asks for the property there. -/
def proposing (representation : Representation) : Code (.reply .flag) :=
  .ask (.allocate representation) fun id =>
    .ask (.put id (.index 0) .null true) fun _ =>
      .ask (.setPrototype Heap.functionPrototype (some id) true) fun _ =>
        .ask (.has Heap.functionPrototype (.index 0)) .give

theorem alike_proposing {representation image : Representation}
    (alike : representation.Alike image) : (proposing representation).Alike (proposing image) := by
  refine .perform (.allocate alike) fun outcome => ?_
  cases outcome with
  | error fault => exact .fail fault
  | ok id => exact Code.alike_self _

/-- The program does not know whether the object is lazy, or lazy twice over. -/
theorem laziness_unobservable_proposing :
    let plain : Representation := .ordinary (.new none)
    let twice : Representation := .pending (.build (.pending (.build plain)))
    (proposing twice).Alike (proposing plain) ∧ (Heap.new {}).Alike (Heap.new {}) ∧
      ∃ told after, ((proposing twice).tell 2).on (Heap.new {}) = some (.ok told, after) ∧
        told.2 = .ok true ∧ ∃ afterImage, after.Alike afterImage ∧
          Eventually fun depth =>
            ((proposing plain).tell depth).on (Heap.new {}) = some (.ok told, afterImage) := by
  intro plain twice
  have once : Representation.Alike (.pending (.build plain)) plain :=
    .of_yields (.build plain) (Representation.alike_self plain)
  have programs : (proposing twice).Alike (proposing plain) :=
    alike_proposing (.of_yields (.build _) once)
  have heaps : (Heap.new {}).Alike (Heap.new {}) := .of_steady (.new {})
  have succeeds : (((proposing twice).tell 2).on (Heap.new {})).any (fun
      | (.ok (_, .ok result), _) => result
      | _ => false) = true := by decide +kernel
  obtain ⟨⟨outcome, after⟩, ran, succeeded⟩ := (Option.any_eq_true _ _).mp succeeds
  rcases outcome with _ | ⟨told, _ | result⟩
  case ok.ok =>
    cases succeeded
    exact ⟨programs, heaps, _, after, ran, rfl, (laziness_unobservable programs heaps _).1 ran⟩
  all_goals cases succeeded

end ObjectModel
