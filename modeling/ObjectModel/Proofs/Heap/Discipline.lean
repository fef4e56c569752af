import ObjectModel.Heap.Run
import ObjectModel.Proofs.Heap.Action

/-!
# Native code that obeys a discipline

A discipline says which commands native code may perform and how it may represent objects.  Code
obeys it if all of its commands do, whatever their outcomes, and so does the code of the functions
and lazy objects that it allocates.  What each command keeps, whole runs of such code keep.
-/

namespace ObjectModel

/-- What native code may do. -/
structure Discipline where
  permits : {reply : Reply} → Command reply → Prop
  admits : Representation → Prop

mutual

/-- Whether a representation is admitted and its code obeys. -/
def Representation.Obeys (discipline : Discipline) : Representation → Prop
  | .function name body base =>
    discipline.admits (.function name body base) ∧
      ∀ this args, (body this args).Obeys discipline
  | .pending factory => discipline.admits (.pending factory) ∧ factory.Obeys discipline
  | .ordinary object => discipline.admits (.ordinary object)
  | .array array => discipline.admits (.array array)
  | .string string => discipline.admits (.string string)
  | .host view => discipline.admits (.host view)
  | .spent => discipline.admits .spent

/-- Whether all commands of code obey, and what it builds does. -/
def Code.Obeys (discipline : Discipline) : {goal : Goal} → Code goal → Prop
  | _, .give _ => True
  | _, .build representation => representation.Obeys discipline
  | _, .fail _ => True
  | _, .perform command next =>
    command.Obeys discipline ∧ ∀ outcome, (next outcome).Obeys discipline

/-- Whether a command is permitted and what it is given obeys. -/
def Command.Obeys (discipline : Discipline) : {reply : Reply} → Command reply → Prop
  | _, .allocate representation =>
    discipline.permits (.allocate representation) ∧ representation.Obeys discipline
  | _, .replace id representation =>
    discipline.permits (.replace id representation) ∧ representation.Obeys discipline
  | _, .hold id exclusive body =>
    discipline.permits (.hold id exclusive body) ∧ body.Obeys discipline
  | _, command => discipline.permits command

end

/-- The discipline that leaves all to the code. -/
def Discipline.free : Discipline where
  permits _ := True
  admits _ := True

mutual

theorem Representation.obeys_free : (representation : Representation) → representation.Obeys .free
  | .function _ body _ => ⟨trivial, fun this args => (body this args).obeys_free⟩
  | .pending factory => ⟨trivial, factory.obeys_free⟩
  | .ordinary _ => trivial
  | .array _ => trivial
  | .string _ => trivial
  | .host _ => trivial
  | .spent => trivial

theorem Code.obeys_free : {goal : Goal} → (code : Code goal) → code.Obeys .free
  | _, .give _ => trivial
  | _, .build representation => representation.obeys_free
  | _, .fail _ => trivial
  | _, .perform command next => ⟨command.obeys_free, fun outcome => (next outcome).obeys_free⟩

theorem Command.obeys_free : {reply : Reply} → (command : Command reply) → command.Obeys .free
  | _, .allocate representation => ⟨trivial, representation.obeys_free⟩
  | _, .replace _ representation => ⟨trivial, representation.obeys_free⟩
  | _, .hold _ _ body => ⟨trivial, body.obeys_free⟩
  | _, .size => trivial
  | _, .get .. => trivial
  | _, .getOwn .. => trivial
  | _, .describe .. => trivial
  | _, .put .. => trivial
  | _, .define .. => trivial
  | _, .delete .. => trivial
  | _, .has .. => trivial
  | _, .hasOwn .. => trivial
  | _, .enumerate .. => trivial
  | _, .isExtensible _ => trivial
  | _, .preventExtensions _ => trivial
  | _, .prototype _ => trivial
  | _, .setPrototype .. => trivial
  | _, .elementCount _ => trivial
  | _, .elementAt .. => trivial
  | _, .swap .. => trivial
  | _, .toTree _ => trivial
  | _, .isCallable _ => trivial
  | _, .call .. => trivial
  | _, .inspect _ => trivial
  | _, .inspectAlone _ => trivial
  | _, .mutate .. => trivial
  | _, .relink .. => trivial
  | _, .resize .. => trivial
  | _, .share .. => trivial
  | _, .edit .. => trivial
  | _, .note _ => trivial

end

/-- Whether all that one discipline allows is allowed by another. -/
structure Discipline.Within (strict lax : Discipline) : Prop where
  permits : ∀ {reply : Reply} {command : Command reply}, strict.permits command →
    lax.permits command
  admits : ∀ {representation : Representation}, strict.admits representation →
    lax.admits representation

mutual

theorem Representation.Obeys.mono {strict lax : Discipline} (within : strict.Within lax) :
    (representation : Representation) → representation.Obeys strict → representation.Obeys lax
  | .function _ body _, obeys =>
    ⟨within.admits obeys.1, fun this args => .mono within (body this args) (obeys.2 this args)⟩
  | .pending factory, obeys => ⟨within.admits obeys.1, .mono within factory obeys.2⟩
  | .ordinary _, obeys => within.admits obeys
  | .array _, obeys => within.admits obeys
  | .string _, obeys => within.admits obeys
  | .host _, obeys => within.admits obeys
  | .spent, obeys => within.admits obeys

theorem Code.Obeys.mono {strict lax : Discipline} (within : strict.Within lax) :
    {goal : Goal} → (code : Code goal) → code.Obeys strict → code.Obeys lax
  | _, .give _, _ => trivial
  | _, .build representation, obeys => Representation.Obeys.mono within representation obeys
  | _, .fail _, _ => trivial
  | _, .perform command next, obeys =>
    ⟨Command.Obeys.mono within command obeys.1,
      fun outcome => Code.Obeys.mono within (next outcome) (obeys.2 outcome)⟩

theorem Command.Obeys.mono {strict lax : Discipline} (within : strict.Within lax) :
    {reply : Reply} → (command : Command reply) → command.Obeys strict → command.Obeys lax
  | _, .allocate representation, obeys =>
    ⟨within.permits obeys.1, .mono within representation obeys.2⟩
  | _, .replace _ representation, obeys =>
    ⟨within.permits obeys.1, .mono within representation obeys.2⟩
  | _, .hold _ _ body, obeys => ⟨within.permits obeys.1, .mono within body obeys.2⟩
  | _, .size, obeys | _, .get .., obeys | _, .getOwn .., obeys | _, .describe .., obeys
  | _, .put .., obeys | _, .define .., obeys | _, .delete .., obeys | _, .has .., obeys
  | _, .hasOwn .., obeys | _, .enumerate .., obeys | _, .isExtensible _, obeys
  | _, .preventExtensions _, obeys | _, .prototype _, obeys | _, .setPrototype .., obeys
  | _, .elementCount _, obeys | _, .elementAt .., obeys | _, .swap .., obeys
  | _, .toTree _, obeys | _, .isCallable _, obeys | _, .call .., obeys | _, .inspect _, obeys
  | _, .inspectAlone _, obeys | _, .mutate .., obeys | _, .relink .., obeys
  | _, .resize .., obeys | _, .share .., obeys | _, .edit .., obeys | _, .note _, obeys =>
    within.permits obeys

end

theorem Command.Obeys.permitted {discipline : Discipline} {reply : Reply} {command : Command reply}
    (obeys : command.Obeys discipline) : discipline.permits command := by
  cases command
  case allocate => exact obeys.1
  case replace => exact obeys.1
  case hold => exact obeys.1
  all_goals exact obeys

/-- Whether the code of a representation obeys. -/
def Representation.Runs (discipline : Discipline) : Representation → Prop
  | .function _ body _ => ∀ this args, (body this args).Obeys discipline
  | .pending factory => factory.Obeys discipline
  | .ordinary _ | .array _ | .string _ | .host _ | .spent => True

/-- Whether what a piece of code produces obeys, if it is a representation. -/
def Goal.Obeys (discipline : Discipline) : (goal : Goal) → goal.Result → Prop
  | .reply _, _ => True
  | .representation, built => Representation.Obeys discipline built

variable {discipline : Discipline} {regime : Regime}

theorem Representation.obeys_iff {representation : Representation} :
    representation.Obeys discipline ↔
      discipline.admits representation ∧ representation.Runs discipline := by
  cases representation <;> simp [Obeys, Runs]

theorem Representation.Runs.represent {old : Representation} (runs : old.Runs discipline)
    (next : Object) : (Heap.represent old next).Runs discipline := by
  cases next
  case map view =>
    cases old
    case host host => trivial
    all_goals exact runs
  case sequence view =>
    cases old
    case host host => trivial
    all_goals exact runs
  case function base =>
    cases old
    all_goals exact runs
  all_goals trivial

theorem Code.on_runWith_perform
    {execute : {reply : Reply} → Command reply → Action reply.Result} {reply : Reply} {goal : Goal}
    (command : Command reply) (next : Except Fault reply.Result → Code goal) (heap : Heap) :
    ((Code.perform command next).runWith execute).on heap =
      ((execute command).on heap).bind fun ended =>
        ((next ended.1).runWith execute).on ended.2 := by
  change (Action.attempt (execute command) >>= fun outcome =>
    (next outcome).runWith execute).on heap = _
  rw [Action.on_bind, Action.on_attempt]
  cases (execute command).on heap <;> rfl

/-- Code that obeys builds only what obeys. -/
theorem Code.obeys_of_on_runWith {execute : {reply : Reply} → Command reply → Action reply.Result} :
    {goal : Goal} → (code : Code goal) → code.Obeys discipline → {heap after : Heap} →
      {result : goal.Result} → (code.runWith execute).on heap = some (.ok result, after) →
        goal.Obeys discipline result
  | _, .give _, _, _, _, _, _ => trivial
  | _, .build _, obeys, _, _, _, ran => by
    cases ran
    exact obeys
  | _, .fail _, _, _, _, _, ran => by cases ran
  | _, .perform _ next, obeys, _, _, _, ran => by
    obtain ⟨outcome, _, _, ran⟩ := Action.exists_of_on_bind_ok ran
    exact obeys_of_on_runWith (next outcome) (obeys.2 outcome) ran

theorem Engine.obeys_of_on_run {depth : Nat} {goal : Goal} {code : Code goal}
    (obeys : code.Obeys discipline) {heap after : Heap} {result : goal.Result}
    (ran : ((Engine.within depth).run code).on heap = some (.ok result, after)) :
    goal.Obeys discipline result := by
  cases depth with
  | zero => cases ran
  | succ depth => exact code.obeys_of_on_runWith obeys ran

/-- Whether an engine runs all obedient code within a regime, and another engine of the same depth
runs it the same way. -/
structure Engine.Follows (watched plain : Engine) (discipline : Discipline) (regime : Regime) :
    Prop where
  depth : watched.depth = plain.depth
  run : ∀ {goal : Goal} (code : Code goal), code.Obeys discipline →
    regime.Carries (watched.run code) (plain.run code)

/-- Whether an engine runs all obedient code within a regime. -/
def Engine.Respects (engine : Engine) (discipline : Discipline) (regime : Regime) : Prop :=
  ∀ {goal : Goal} (code : Code goal), code.Obeys discipline → regime.Keeps (engine.run code)

theorem Engine.Respects.follows {engine : Engine} (respects : engine.Respects discipline regime) :
    engine.Follows engine discipline regime where
  depth := rfl
  run code obeys := (respects code obeys).carries

theorem Code.carries_runWith
    {watched plain : {reply : Reply} → Command reply → Action reply.Result}
    (carries : ∀ {reply : Reply} (command : Command reply), command.Obeys discipline →
      regime.Carries (watched command) (plain command)) :
    {goal : Goal} → (code : Code goal) → code.Obeys discipline →
      regime.Carries (code.runWith watched) (code.runWith plain)
  | _, .give result, _ => .pure result
  | _, .build representation, _ => .pure representation
  | _, .fail fault, _ => (Regime.Keeps.throw fault).carries
  | _, .perform command next, obeys => by
    obtain ⟨commandObeys, nextObeys⟩ :
      command.Obeys discipline ∧ ∀ outcome, (next outcome).Obeys discipline := obeys
    apply (carries command commandObeys).attempt.bind
    intro outcome
    exact carries_runWith carries (next outcome) (nextObeys outcome)

/-- Code is within a regime if its commands are. -/
theorem Code.keeps_runWith
    {execute : {reply : Reply} → Command reply → Action reply.Result}
    (keeps : ∀ {reply : Reply} (command : Command reply), command.Obeys discipline →
      regime.Keeps (execute command)) {goal : Goal} (code : Code goal)
    (obeys : code.Obeys discipline) : regime.Keeps (code.runWith execute) :=
  (Code.carries_runWith (fun command obeys => (keeps command obeys).carries) code obeys).keeps

theorem Engine.depth_within (depth : Nat) : (Engine.within depth).depth = depth := by
  cases depth <;> rfl

section Levels

variable (keeps : ∀ engine : Engine, engine.Respects discipline regime →
  ∀ {reply : Reply} (command : Command reply), command.Obeys discipline →
    regime.Keeps (command.execute engine))

include keeps

/-- However deep the calls go, the code that is called is within the regime. -/
theorem Engine.respects_within (depth : Nat) :
    (Engine.within depth).Respects discipline regime := by
  induction depth with
  | zero =>
    intro goal code _
    exact .exhausted
  | succ depth inductionHypothesis =>
    intro goal code obeys
    exact Code.keeps_runWith (keeps _ inductionHypothesis) code obeys

theorem Code.keeps_run (depth : Nat) {goal : Goal} (code : Code goal)
    (obeys : code.Obeys discipline) : regime.Keeps (code.run depth) :=
  Code.keeps_runWith (keeps _ (Engine.respects_within keeps depth)) code obeys

end Levels

end ObjectModel
