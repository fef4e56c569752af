import ObjectModel.Proofs.Heap.Lifecycle

/-!
# Actions that run no native code

The entry of a factory and the call of a function are recorded before any of their code runs, and no
record is ever lost.  So an action that leaves the log as it was has run no native code, and if all
that it does by itself is to look at objects, it has changed nothing at all.
-/

namespace ObjectModel.Heap

variable {heap after : Heap} {id : ObjectId} {object : Object} {key : Key} {value : Value}
  {factory : Code .representation} {depth : Nat}

/-- The regime in which no record is lost. -/
def recording : Regime where
  safe := Steady
  leadsTo before after := before.Settling after ∧ before.log <:+ after.log
  refl heap := ⟨steadying.refl heap, List.suffix_rfl⟩
  trans early late := ⟨steadying.trans early.1 late.1, early.2.trans late.2⟩

theorem bears_recording : recording.Bears where
  steady steady := steady
  spent leads _ spent := (leads.1.2 _ spent).1
  recorded steady event unentered := by
    have recorded := bears_steadying.recorded steady event unentered
    exact ⟨recorded.1, recorded.2, List.suffix_cons event _⟩
  hosted steady collections names := by
    have hosted := bears_steadying.hosted steady collections names
    exact ⟨hosted.1, hosted.2, List.suffix_rfl⟩
  allocated steady representation := by
    have allocated := bears_steadying.allocated steady representation
    exact ⟨allocated.1, allocated.2, List.suffix_rfl⟩
  changed := by
    intro heap steady id cell found eager next eagerNext
    have changed := bears_steadying.changed steady found eager eagerNext
    exact ⟨changed.1, changed.2, List.suffix_rfl⟩
  entered steady _ _ pending := steady.entered pending
  failed steady _ _ pending _ _ _ ran reached := by
    have failed := bears_steadying.failed steady pending ran ⟨reached.1, reached.2.1⟩
    exact ⟨failed.1, failed.2, (List.suffix_cons _ _).trans reached.2.2⟩
  built steady _ _ pending _ _ _ ran obeys reached := by
    have built := bears_steadying.built steady pending ran obeys ⟨reached.1, reached.2.1⟩
    exact ⟨built.1, built.2, (List.suffix_cons _ _).trans reached.2.2⟩

theorem carries_recording (follows : (Engine.within depth).Follows (.within depth) .free recording)
    {reply : Reply} (command : Command reply) :
    recording.Carries (command.execute (.within depth)) (command.execute (.within depth)) := by
  apply bears_recording.carries_execute follows command
  intro id representation _ heap steady cell found eager
  exact ⟨steady.setCell found fun _ => rfl, .setCell found eager _, List.suffix_rfl⟩

theorem respects_within_recording (depth : Nat) :
    (Engine.within depth).Respects .free recording :=
  Regime.respects_within (fun {_} follows {_} command _ => carries_recording follows command) depth

theorem follows_recording (depth : Nat) :
    (Engine.within depth).Follows (.within depth) .free recording :=
  Engine.Respects.follows (respects_within_recording depth)

theorem keeps_execute_recording {reply : Reply} (command : Command reply) :
    recording.Keeps (command.execute (.within depth)) :=
  (carries_recording (follows_recording depth) command).keeps

/-- A log that is as it was has been so in between. -/
theorem log_eq_of_between {mid : Heap} (grows : heap.log <:+ mid.log)
    (later : mid.log <:+ after.log) (quiet : after.log = heap.log) : mid.log = heap.log := by
  rw [quiet] at later
  exact later.eq_of_length_le grows.length_le

/-- The regime in which nothing changes unless native code runs. -/
def quieting : Regime where
  safe := Steady
  leadsTo before after :=
    before.Settling after ∧ before.log <:+ after.log ∧ (after.log = before.log → after = before)
  refl heap := ⟨steadying.refl heap, List.suffix_rfl, fun _ => rfl⟩
  trans := by
    rintro first second third ⟨settling, grows, quiet⟩ ⟨settlingLater, growsLater, quietLater⟩
    refine ⟨steadying.trans settling settlingLater, grows.trans growsLater, fun same => ?_⟩
    have between := log_eq_of_between grows growsLater same
    rw [quietLater (same.trans between.symm), quiet between]

/-- What is recorded once, whatever was before and comes later, makes a difference. -/
theorem log_ne_of_recorded {mid : Heap} {event : Event} (before : heap.log <:+ mid.log)
    (later : event :: mid.log <:+ after.log) : after.log ≠ heap.log := by
  intro same
  have shorter := before.length_le
  have longer := later.length_le
  rw [same, List.length_cons] at longer
  omega

theorem quieting_of_recorded {event : Event} (reached : recording.Reaches heap after)
    (recorded : event :: heap.log <:+ after.log) : quieting.Reaches heap after :=
  ⟨reached.1, reached.2.1, reached.2.2, fun same =>
    absurd same (log_ne_of_recorded List.suffix_rfl recorded)⟩

theorem ensures_install_log (id : ObjectId) (representation : Representation) (heap : Heap) :
    (install id representation).Ensures heap fun _ after => after.log = heap.log := by
  refine .bind_reading (on_cellOf heap id) (fun cell _ => ?_) fun _ _ => rfl
  exact .bind_reading (Action.on_ofExcept _ heap) (fun _ _ => .of_on rfl rfl) fun _ _ => rfl

theorem ensures_enterFactory_log (steady : heap.Steady)
    (pending : heap.cell? id = some (.new (.pending factory))) :
    (enterFactory (.within depth) id).Ensures heap fun _ after =>
      .factory id :: heap.log <:+ after.log := by
  unfold Action.Ensures
  rw [on_enterFactory_pending pending]
  refine Action.Ensures.bind
    (respects_within_recording depth factory factory.obeys_free _ (steady.entered pending))
    ?_ fun _ _ reached => reached.2.2
  intro built after reached
  have grown : .factory id :: heap.log <:+ after.log := reached.2.2
  refine (ensures_install_log id built after).bind ?_ ?_
  · intro _ last same
    rw [← same] at grown
    exact .of_on rfl grown
  · intro _ last same
    rwa [← same] at grown

theorem keeps_enterFactory_quieting (depth : Nat) (id : ObjectId) :
    quieting.Keeps (enterFactory (.within depth) id) := by
  intro heap steady
  rcases steady.cases id with ready | spent | ⟨factory, pending⟩
  · exact .of_on (ready.on_enterFactory _) (.refl steady)
  · exact .of_on (on_enterFactory_spent spent) (.refl steady)
  · intro outcome after ran
    obtain ⟨_, reached⟩ :=
      bears_recording.carries_enterFactory (follows_recording depth) id heap steady _ _ ran
    exact quieting_of_recorded reached (ensures_enterFactory_log steady pending _ _ ran)

theorem keeps_construct_quieting (depth : Nat) (id : ObjectId) :
    quieting.Keeps (construct (.within depth) id) :=
  ((keeps_enterFactory_quieting depth id).carries.constructWithin _).keeps

theorem keeps_read_quieting (depth : Nat) (id : ObjectId) :
    quieting.Keeps (read (.within depth) id) := by
  apply (keeps_construct_quieting depth id).bind
  intro _
  exact (Regime.Keeps.cellOf id).bind fun _ => .ofExcept _

/-- Unless a call is recorded, nothing comes of it but a fault. -/
theorem ensures_call_quieting (steady : heap.Steady) (function this : Value) (args : List Value) :
    (call (.within depth) function this args).Ensures heap fun outcome after =>
      quieting.Reaches heap after ∧ (after.log = heap.log → ∃ fault, outcome = .error fault) := by
  cases function
  case object id =>
    refine (keeps_read_quieting depth id heap steady).bind ?_ ?_
    · intro representation mid reached
      cases representation
      case function name body base =>
        have recorded := bears_recording.recorded reached.1 (.call name this args) fun _ => nofun
        intro outcome last ran
        rw [Action.on_bind_ok (Action.on_modify _ mid)] at ran
        have running := respects_within_recording depth (body this args) (body this args).obeys_free
          _ recorded.1 outcome last ran
        have grown : .call name this args :: mid.log <:+ last.log := running.2.2
        refine ⟨reached.trans (quieting_of_recorded (recorded.trans running) grown), fun same => ?_⟩
        exact absurd same (log_ne_of_recorded reached.2.2.1 grown)
      all_goals exact .of_on rfl ⟨reached, fun _ => ⟨_, rfl⟩⟩
    · exact fun fault after reached => ⟨reached, fun _ => ⟨fault, rfl⟩⟩
  all_goals exact .of_on rfl ⟨.refl steady, fun _ => ⟨_, rfl⟩⟩

theorem serves_quieting (depth : Nat) : quieting.Serves (.within depth) (.within depth) where
  depth := rfl
  construct id := (keeps_construct_quieting depth id).carries
  call function this args := by
    apply Regime.Keeps.carries
    intro heap steady
    exact (ensures_call_quieting steady function this args).mono fun _ _ => And.left

/-- If nothing is recorded between an action that only looks and the one after it, the latter runs
on the heap as it was, unless the former fails. -/
theorem on_bind_quiet {α β : Type} {action : Action α} {next : α → Action β}
    {outcome : Except Fault β} (steady : heap.Steady) (looks : quieting.Keeps action)
    (records : ∀ result, recording.Keeps (next result))
    (ran : (action >>= next).on heap = some (outcome, after)) (quiet : after.log = heap.log) :
    (∃ result, (next result).on heap = some (outcome, after)) ∨
      ∃ fault, outcome = .error fault ∧ after = heap := by
  rw [Action.on_bind] at ran
  cases looked : action.on heap with
  | none =>
    rw [looked] at ran
    cases ran
  | some ended =>
    obtain ⟨result, mid⟩ := ended
    rw [looked] at ran
    obtain ⟨steadyMid, _, grows, unchanged⟩ := looks heap steady result mid looked
    cases result with
    | error fault =>
      cases ran
      exact .inr ⟨fault, rfl, unchanged quiet⟩
    | ok result =>
      have growsLater := (records result mid steadyMid outcome after ran).2.2
      cases unchanged (log_eq_of_between grows growsLater quiet)
      exact .inl ⟨result, ran⟩

end ObjectModel.Heap
