import ObjectModel.Proofs.Heap.Quiet

/-!
# Commands that run no native code

The engine of a command only matters for the native code that it runs.  So a command that leaves the
log as it was, and has run none, does the same with every engine that allows as deep calls.
-/

namespace ObjectModel.Heap

variable {heap after : Heap} {id : ObjectId} {factory : Code .representation} {depth : Nat}
  {engine : Engine} {α : Type}

/-- To lose no record, and to do the same as another action unless something is recorded, is
followed from one action to the next. -/
def silence : Simulation Unit where
  related action family := ∀ heap, heap.Steady → action.Ensures heap fun outcome after =>
    recording.Reaches heap after ∧
      (after.log = heap.log → (family ()).on heap = some (outcome, after))
  enough depth depths := depth = depths ()
  pure _ _ steady := .of_on rfl ⟨.refl steady, fun _ => rfl⟩
  throw _ _ steady := .of_on rfl ⟨.refl steady, fun _ => rfl⟩
  bind := by
    intro α β action family next nextFamily silent silentNext heap steady
    refine Action.Ensures.bind (silent heap steady) ?_ ?_
    · intro result mid first
      obtain ⟨reached, same⟩ := first
      refine (silentNext result mid reached.1).mono ?_
      intro outcome last ended
      obtain ⟨reachedLast, sameLast⟩ := ended
      refine ⟨reached.trans reachedLast, fun quiet => ?_⟩
      have quietMid := log_eq_of_between reached.2.2 reachedLast.2.2 quiet
      rw [Action.on_bind_ok (same quietMid)]
      exact sameLast (quiet.trans quietMid.symm)
    · intro fault mid first
      exact ⟨first.1, fun quiet => Action.on_bind_error (first.2 quiet) _⟩
  policy _ steady := .of_on rfl ⟨.refl steady, fun _ => rfl⟩
  exhausted _ _ _ _ _ ran := nomatch ran
  descend := by
    intro depth depths same
    refine ⟨fun _ => depth, rfl, fun family silent => ?_⟩
    simp only [← same]
    exact silent

theorem silence_of_keeps {action : Action α} (keeps : recording.Keeps action) :
    silence.related action fun _ => action := by
  intro heap steady outcome after ran
  exact ⟨keeps heap steady outcome after ran, fun _ => ran⟩

theorem ensures_construct_log (steady : heap.Steady)
    (pending : heap.cell? id = some (.new (.pending factory))) :
    (construct (.within depth) id).Ensures heap fun _ after =>
      .factory id :: heap.log <:+ after.log := by
  have enters := bears_recording.carries_enterFactory (follows_recording depth) id
  have entered : (enterFactory (.within depth) id).Ensures heap fun _ after =>
      recording.Reaches heap after ∧ .factory id :: heap.log <:+ after.log := by
    intro outcome after ran
    exact ⟨(enters heap steady outcome after ran).2,
      ensures_enterFactory_log steady pending outcome after ran⟩
  unfold construct
  cases (Engine.within depth).depth with
  | zero =>
    refine entered.bind (fun again mid reached => ?_) fun _ _ reached => reached.2
    cases again
    case true => exact fun _ _ ran => nomatch ran
    case false => exact .of_on rfl reached.2
  | succ bound =>
    refine entered.bind (fun again mid reached => ?_) fun _ _ reached => reached.2
    cases again
    case true =>
      have constructs := (enters.constructWithin bound).keeps
      exact (constructs mid reached.1.1).mono fun _ _ later => reached.2.trans later.2.2
    case false => exact .of_on rfl reached.2

theorem ensures_construct_bind_log {rest : Action α}
    (keeps : recording.Keeps (construct (.within depth) id >>= fun _ => rest))
    (steady : heap.Steady) (pending : heap.cell? id = some (.new (.pending factory))) :
    (construct (.within depth) id >>= fun _ => rest).Ensures heap fun _ after =>
      .factory id :: heap.log <:+ after.log := by
  have constructs : (construct (.within depth) id).Ensures heap fun outcome mid =>
      .factory id :: heap.log <:+ mid.log ∧ mid.Steady ∧
        (outcome = .ok () → mid.Constructed id) := by
    intro outcome mid ran
    have carried :=
      bears_recording.carries_construct (follows_recording depth) id heap steady _ _ ran
    refine ⟨ensures_construct_log steady pending outcome mid ran, carried.2.1, ?_⟩
    rintro rfl
    exact constructed_of_on_construct ran
  refine constructs.bind ?_ fun _ _ ended => ended.1
  intro _ mid ended outcome after ran
  obtain ⟨recorded, steadyMid, constructed⟩ := ended
  have again := Action.on_bind_ok ((constructed rfl).on_construct (.within depth)) fun _ => rest
  exact recorded.trans (keeps mid steadyMid outcome after (again.trans ran)).2.2

/-- What is done to an object once it is constructed is done with every engine, if the engine does
not matter from there on. -/
theorem silence_construct {rest : Action α}
    (keeps : recording.Keeps (construct (.within depth) id >>= fun _ => rest)) :
    silence.related (construct (.within depth) id >>= fun _ => rest) fun _ =>
      construct engine id >>= fun _ => rest := by
  intro heap steady outcome after ran
  refine ⟨keeps heap steady outcome after ran, fun quiet => ?_⟩
  rcases steady.cases id with ready | spent | ⟨factory, pending⟩
  · rw [Action.on_bind, ready.on_construct] at ran ⊢
    exact ran
  · rw [Action.on_bind, on_construct_spent spent] at ran ⊢
    exact ran
  · have recorded := ensures_construct_bind_log keeps steady pending outcome after ran
    exact absurd quiet (log_ne_of_recorded List.suffix_rfl recorded)

theorem silence_read : silence.related (read (.within depth) id) fun _ => read engine id := by
  have reads := (bears_recording.serves (follows_recording depth)).carries_read id
  exact silence_construct reads.keeps

theorem silence_call (function this : Value) (args : List Value) :
    silence.related (call (.within depth) function this args) fun _ =>
      call engine function this args := by
  cases function
  case object id =>
    apply silence.bind silence_read
    intro representation
    cases representation
    case function name body base =>
      intro heap steady outcome after ran
      have recorded := bears_recording.recorded steady (.call name this args) fun _ => nofun
      rw [Action.on_bind_ok (Action.on_modify _ heap)] at ran
      have running := respects_within_recording depth (body this args) (body this args).obeys_free
        _ recorded.1 outcome after ran
      exact ⟨recorded.trans running, fun quiet =>
        absurd quiet (log_ne_of_recorded List.suffix_rfl running.2.2)⟩
    all_goals exact silence.throw _
  all_goals exact silence.throw _

theorem serves_silence (same : engine.depth = depth) :
    silence.Serves (.within depth) fun _ => engine where
  depth := (Engine.depth_within depth).trans same.symm
  inspect id := silence.bind silence_read fun representation =>
    silence_of_keeps (.viewOf representation)
  inspectAlone id := by
    have looks := (bears_recording.serves (follows_recording depth)).carries_inspectAlone id
    exact silence_construct looks.keeps
  array? id := Simulation.map silence_read _
  isFunction id := Simulation.map silence_read _
  call := silence_call

theorem amends_silence (same : engine.depth = depth) :
    silence.Amends .free (.within depth) fun _ => engine where
  toServes := serves_silence same
  amend id change changes := by
    have amends := bears_recording.withstands.amends (follows_recording depth)
    have amended := amends.amend id changes
    exact silence_construct (Regime.Carries.keeps amended)
  size := silence_of_keeps (Regime.Keeps.get.carries.map Heap.size).keeps
  share collection name :=
    silence_of_keeps (.share collection name fun steady names =>
      bears_recording.withstands.shared steady collection names)
  edit name edit :=
    silence_of_keeps (.edit name edit fun steady _ _ found =>
      bears_recording.withstands.edited steady found edit)
  note outcome :=
    silence_of_keeps (.modify fun _ steady =>
      bears_recording.recorded steady (.step outcome) fun _ => nofun)

/-- A command that runs no native code does the same with every engine. -/
theorem on_execute_of_quiet {reply : Reply} {command : Command reply}
    (codeless : command.carriesCode = false) (steady : heap.Steady)
    {outcome : Except Fault reply.Result}
    (ran : (command.execute (.within depth)).on heap = some (outcome, after))
    (quiet : after.log = heap.log) (same : engine.depth = depth) :
    (command.execute engine).on heap = some (outcome, after) :=
  ((amends_silence same).execute codeless trivial heap steady outcome after ran).2 quiet

end ObjectModel.Heap
