import ObjectModel.Proofs.Heap.Discipline

/-!
# Guarded runs

A guard says of each command whether it may be performed on the heap as it is.  A guarded run is a
run that does not go on past any other command, however deep in the native code that is.
-/

namespace ObjectModel

/-- Carry out a command if a guard lets it pass. -/
def Command.executeGuarded (guard : Heap → {reply : Reply} → Command reply → Bool)
    (engine : Engine) {reply : Reply} (command : Command reply) : Action reply.Result := do
  if guard (← MonadState.get) command then command.execute engine else Action.exhausted

/-- The engine that runs native code at most `depth` levels deep, as far as a guard lets it. -/
def Engine.guarded (guard : Heap → {reply : Reply} → Command reply → Bool) : (depth : Nat) → Engine
  | 0 => ⟨0, fun _ => Action.exhausted⟩
  | depth + 1 =>
    ⟨depth + 1, fun code => code.runWith (Command.executeGuarded guard (guarded guard depth))⟩

theorem Engine.depth_guarded (guard : Heap → {reply : Reply} → Command reply → Bool)
    (depth : Nat) : (Engine.guarded guard depth).depth = depth := by
  cases depth <;> rfl

def Code.runGuarded (guard : Heap → {reply : Reply} → Command reply → Bool) (depth : Nat)
    {goal : Goal} (code : Code goal) : Action goal.Result :=
  code.runWith (Command.executeGuarded guard (.guarded guard depth))

namespace Regime

variable {regime : Regime} {discipline : Discipline}

section Guarded

variable {guard : Heap → {reply : Reply} → Command reply → Bool}

theorem carries_executeGuarded {watched plain : Engine} {reply : Reply} {command : Command reply}
    (carries : ∀ heap, regime.safe heap → guard heap command = true →
      regime.CarriesFrom heap (command.execute watched) (command.execute plain)) :
    regime.Carries (command.executeGuarded guard watched) (command.execute plain) := by
  intro heap safe outcome after ran
  unfold Command.executeGuarded at ran
  rw [Action.on_bind_ok (Action.on_get heap)] at ran
  split at ran
  next passed => exact carries heap safe passed outcome after ran
  next => cases ran

variable (carries : ∀ {watched depth}, watched.Follows (.within depth) discipline regime →
  ∀ {reply : Reply} (command : Command reply), command.Obeys discipline → ∀ heap,
    regime.safe heap → guard heap command = true →
      regime.CarriesFrom heap (command.execute watched) (command.execute (.within depth)))

include carries

theorem follows_guarded (depth : Nat) :
    (Engine.guarded guard depth).Follows (.within depth) discipline regime := by
  induction depth with
  | zero => exact ⟨rfl, fun _ _ => Keeps.exhausted.carries⟩
  | succ depth inductionHypothesis =>
    refine ⟨rfl, fun code obeys => code.carries_runWith ?_ obeys⟩
    intro reply command commandObeys
    exact carries_executeGuarded (carries inductionHypothesis command commandObeys)

/-- A guarded run that ends is a run, and it is within the regime. -/
theorem carries_runGuarded (depth : Nat) {goal : Goal} {code : Code goal}
    (obeys : code.Obeys discipline) :
    regime.Carries (code.runGuarded guard depth) (code.run depth) := by
  refine code.carries_runWith ?_ obeys
  intro reply command commandObeys
  exact carries_executeGuarded (carries (follows_guarded carries depth) command commandObeys)

end Guarded

section Unguarded

variable (carries : ∀ {depth}, (Engine.within depth).Follows (.within depth) discipline regime →
  ∀ {reply : Reply} (command : Command reply), command.Obeys discipline →
    regime.Carries (command.execute (.within depth)) (command.execute (.within depth)))

include carries

theorem respects_within (depth : Nat) : (Engine.within depth).Respects discipline regime := by
  induction depth with
  | zero => exact fun _ _ => Keeps.exhausted
  | succ depth inductionHypothesis =>
    intro goal code obeys
    apply code.keeps_runWith (fun command commandObeys => ?_) obeys
    exact (carries inductionHypothesis.follows command commandObeys).keeps

/-- Runs are within the regime, if all commands are as soon as the code that they run is. -/
theorem keeps_run (depth : Nat) {goal : Goal} {code : Code goal} (obeys : code.Obeys discipline) :
    regime.Keeps (code.run depth) := by
  apply code.keeps_runWith (fun command commandObeys => ?_) obeys
  exact (carries (Engine.Respects.follows (respects_within carries depth)) command
    commandObeys).keeps

end Unguarded

end Regime

end ObjectModel
