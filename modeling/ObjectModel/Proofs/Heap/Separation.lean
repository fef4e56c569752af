import ObjectModel.Proofs.Heap.Amendment
import ObjectModel.Proofs.Heap.Decision
import ObjectModel.Proofs.Heap.Frame
import ObjectModel.Proofs.Host.Separation

/-!
# Different keys of the host maps in a heap

Whatever is done at one key of a view on a map leaves the properties at all keys that the map tells
apart from it.  Maps with numbers for keys tell all keys apart, and maps with strings all keys
without lone surrogates.
-/

namespace ObjectModel.Heap

variable {heap moment after : Heap} {id : ObjectId} {keyType : KeyType} {elementType : ElementType}
  {view : HostMap keyType elementType} {first second key : Key} {value : Value} {depth : Nat}

/-- Whether a handle still is that of a view on a map, with the same property at a key. -/
def KeepsProperty (view : HostMap keyType elementType) (id : ObjectId) (key : Key) (after : Heap) :
    Prop :=
  ∃ next : HostMap keyType elementType,
    after.object? id = some (.map next) ∧ next.getOwn key = view.getOwn key

theorem Amended.keepsProperty {mutation : OwnMutation} {outcome : Except Fault Verdict}
    (amended : heap.Amended id (.map view) (·.mutate mutation) outcome after)
    (seen : heap.object? id = some (.map view))
    (separates : keyType.Separates mutation.key second) : KeepsProperty view id second after := by
  cases amended with
  | failed fault => exact ⟨view, seen, rfl⟩
  | changed done seenNext =>
    have wrapped := (Object.mutate_map view mutation).symm.trans done
    obtain ⟨next, mutated, rfl⟩ := exists_of_map_wrap_eq_ok wrapped
    exact ⟨next, seenNext, HostMap.getOwn_mutate_of_separates separates mutated⟩

theorem keepsProperty_on_mutate (seen : heap.object? id = some (.map view)) (engine : Engine)
    (mutation : OwnMutation) (separates : keyType.Separates mutation.key second) :
    ∃ outcome after, (judge engine id (·.mutate mutation)).on heap = some (outcome, after) ∧
      KeepsProperty view id second after := by
  obtain ⟨outcome, after, ran, amended⟩ := exists_amended seen engine (retains_mutate mutation)
  exact ⟨outcome, after, ran, amended.keepsProperty seen separates⟩

theorem keepsProperty_on_define (seen : heap.object? id = some (.map view)) (engine : Engine)
    (separates : keyType.Separates first second) (request : Request) :
    ∃ outcome after, (judgeDefine engine id first request).on heap = some (outcome, after) ∧
      KeepsProperty view id second after := by
  unfold judgeDefine
  rw [Action.on_bind, Action.on_ofExcept]
  cases request.validate with
  | error fault => exact ⟨_, _, rfl, view, seen, rfl⟩
  | ok _ => exact keepsProperty_on_mutate seen engine (.define first request) separates

theorem keepsProperty_on_delete (seen : heap.object? id = some (.map view)) (engine : Engine)
    (separates : keyType.Separates first second) :
    ∃ outcome after, (judgeDelete engine id first).on heap = some (outcome, after) ∧
      KeepsProperty view id second after :=
  keepsProperty_on_mutate seen engine (.delete first) separates

/-- However long it takes to decide that a value is to be stored, it is stored at its key only. -/
theorem keepsProperty_on_put {engine : Engine} {decision : Decision}
    (decided : (deliberate engine id first value).on heap = some (.ok decision, moment))
    (stores : decision.stores = true) (seen : moment.object? id = some (.map view))
    (separates : keyType.Separates first second) :
    ∃ outcome after, (judgePut engine id first value).on heap = some (outcome, after) ∧
      KeepsProperty view id second after := by
  rw [put_eq_deliberate, Action.on_bind_ok decided]
  cases decision
  case overwrite => exact keepsProperty_on_mutate seen engine (.write first value) separates
  case add => exact keepsProperty_on_mutate seen engine (.add first value) separates
  all_goals cases stores

theorem Touches.keepsProperty {engine : Engine} {outcome : Except Fault Verdict}
    (touches : Touches engine heap id first outcome after)
    (seen : heap.object? id = some (.map view)) (separates : keyType.Separates first second) :
    KeepsProperty view id second after := by
  cases touches with
  | untouched => exact ⟨view, seen, rfl⟩
  | mutated mutation about stores ran =>
    subst about
    obtain ⟨_, _, ranToo, keeps⟩ := keepsProperty_on_mutate seen engine mutation separates
    cases ran.symm.trans ranToo
    exact keeps
  | @relinked prototype _ _ isProto outcome ran =>
    obtain ⟨_, _, ranToo, amended⟩ :=
      exists_amended seen engine (retains_setPrototype prototype)
    cases ran.symm.trans ranToo
    cases amended with
    | failed fault => exact ⟨view, seen, rfl⟩
    | changed done seenNext =>
      cases done
      exact ⟨_, seenNext, rfl⟩

/-- Whether commands at one key of a view on a map leave its properties at all keys that the map
tells apart from it.

To put a property may run a setter or the factories of prototypes that are lazy.  These do what they
like, and this is recorded; but what they leave is left when the value is stored. -/
structure SeparatesKeys (heap : Heap) : Prop where
  put : ∀ {depth id keyType elementType} {view : HostMap keyType elementType}
    {first second value strict outcome after}, heap.object? id = some (.map view) →
    keyType.Separates first second →
      ((Command.put id first value strict).execute (.within depth)).on heap =
        some (outcome, after) → after.log = heap.log → KeepsProperty view id second after
  stores : ∀ {depth id keyType elementType} {view : HostMap keyType elementType}
    {first second value decision moment},
    (deliberate (.within depth) id first value).on heap = some (.ok decision, moment) →
      decision.stores = true → moment.object? id = some (.map view) →
      keyType.Separates first second →
        ∀ strict, ∃ outcome after,
          ((Command.put id first value strict).execute (.within depth)).on heap =
            some (outcome, after) ∧ KeepsProperty view id second after
  define : ∀ {id keyType elementType} {view : HostMap keyType elementType} {first second},
    heap.object? id = some (.map view) → keyType.Separates first second →
      ∀ engine request strict, ∃ outcome after,
        ((Command.define id first request strict).execute engine).on heap = some (outcome, after) ∧
          KeepsProperty view id second after
  delete : ∀ {id keyType elementType} {view : HostMap keyType elementType} {first second},
    heap.object? id = some (.map view) → keyType.Separates first second →
      ∀ engine strict, ∃ outcome after,
        ((Command.delete id first strict).execute engine).on heap = some (outcome, after) ∧
          KeepsProperty view id second after

theorem exists_on_report {action : Action Verdict} {holds : Heap → Prop}
    (ran : ∃ outcome after, action.on heap = some (outcome, after) ∧ holds after) (strict : Bool) :
    ∃ outcome after, (action.report strict).on heap = some (outcome, after) ∧ holds after := by
  obtain ⟨outcome, after, ran, holding⟩ := ran
  rw [on_report, ran]
  exact ⟨_, _, rfl, holding⟩

theorem Steady.separatesKeys (steady : heap.Steady) : heap.SeparatesKeys where
  put seen separates ran quiet := by
    obtain ⟨cell, found, viewed⟩ := Option.bind_eq_some_iff.mp seen
    rw [Command.execute_put, on_report] at ran
    obtain ⟨ended, put, same⟩ := Option.map_eq_some_iff.mp ran
    cases same
    exact (Touches.of_on_put steady (ready_of_view found viewed) put quiet).keepsProperty seen
      separates
  stores decided stores seen separates strict := by
    rw [Command.execute_put]
    exact exists_on_report (keepsProperty_on_put decided stores seen separates) strict
  define seen separates engine request strict := by
    rw [Command.execute_define]
    exact exists_on_report (keepsProperty_on_define seen engine separates request) strict
  delete seen separates engine strict := by
    rw [Command.execute_delete]
    exact exists_on_report (keepsProperty_on_delete seen engine separates) strict

/-- Two different keys are told apart, unless they are taken for the same string; then one of them
has a lone surrogate, and they are the same property of every view.  In new heaps, and in all heaps
that runs of code lead to, whatever is done at one of two keys that are told apart leaves the
property at the other. -/
theorem keys_of_maps_separate (steady : heap.Steady) :
    (∀ (keyType : KeyType) {first second : Key}, first.Built → second.Built → first ≠ second →
        keyType.Separates first second ∨
          keyType = .string ∧ first.display = second.display ∧
            (first.toText.toString? = none ∨ second.toText.toString? = none) ∧
            ∀ {elementType} (view : HostMap keyType elementType),
              view.getOwn first = view.getOwn second) ∧
      (∀ policy, (new policy).Steady) ∧ heap.SeparatesKeys ∧
      ∀ {depth goal} {code : Code goal} {outcome after},
        (code.run depth).on heap = some (outcome, after) →
          after.Steady ∧ after.SeparatesKeys := by
  refine ⟨fun keyType first second builtFirst builtSecond different => ?_, Steady.new,
    steady.separatesKeys, fun {depth goal code outcome after} ran => ?_⟩
  · rcases Classical.em (keyType.Merges first second) with merges | unmerged
    · exact .inr ⟨merges.1, merges.2, merges.broken builtFirst builtSecond different,
        fun _ => HostMap.getOwn_eq_of_merges merges⟩
    · exact .inl ⟨builtFirst, builtSecond, different, unmerged⟩
  · have reached := respects_within_recording (depth + 1) code code.obeys_free heap steady _ _ ran
    exact ⟨reached.1, Steady.separatesKeys reached.1⟩

/-- A key that is half of a surrogate pair. -/
def brokenKey : Key := .ofText (.ofUnits [0xD800])

/-- An entry is put at a key with a lone surrogate and deleted again, and the other entry stays. -/
theorem keys_of_maps_separate_flags :
    ∃ after last,
      ((performing (.put ⟨4⟩ brokenKey (.boolean false) true)).run 1).on
          (withView (flags "name") true) = some (.ok true, after) ∧
        (after.object? ⟨4⟩).bind (·.getOwn (.ofString "name")) = some (.bare (.boolean true)) ∧
        ((Command.delete ⟨4⟩ brokenKey true).execute (.within 1)).on after =
          some (.ok true, last) ∧
        (last.object? ⟨4⟩).bind (·.getOwn (.ofString "name")) = some (.bare (.boolean true)) := by
  obtain ⟨told, _, separatesKeys, separatesAfter⟩ :=
    keys_of_maps_separate (withView_steady (flags "name") true)
  have separates : KeyType.string.Separates brokenKey (.ofString "name") := by
    refine (told .string (.ofText _) (.ofString _) (by decide)).resolve_right ?_
    rintro ⟨_, shown, _⟩
    exact absurd shown (by decide)
  obtain ⟨view, seen, found⟩ : ∃ view : HostMap .string (.plain .boolean),
      (withView (flags "name") true).object? ⟨4⟩ = some (.map view) ∧
        view.getOwn (.ofString "name") = some (.bare (.boolean true)) := ⟨_, rfl, rfl⟩
  obtain ⟨after, last, put, ran, quiet, deleted⟩ : ∃ after last,
      ((Command.put ⟨4⟩ brokenKey (.boolean false) true).execute (.within 1)).on
          (withView (flags "name") true) = some (.ok true, after) ∧
        ((performing (.put ⟨4⟩ brokenKey (.boolean false) true)).run 1).on
          (withView (flags "name") true) = some (.ok true, after) ∧
        after.log = (withView (flags "name") true).log ∧
        ((Command.delete ⟨4⟩ brokenKey true).execute (.within 1)).on after =
          some (.ok true, last) := ⟨_, _, rfl, rfl, rfl, rfl⟩
  obtain ⟨next, seenNext, kept⟩ := separatesKeys.put seen separates put quiet
  obtain ⟨_, separatesNext⟩ := separatesAfter ran
  obtain ⟨_, _, deletedToo, later, seenLater, keptLater⟩ :=
    separatesNext.delete seenNext separates (.within 1) true
  cases deleted.symm.trans deletedToo
  refine ⟨after, last, ran, ?_, deleted, ?_⟩
  · rw [seenNext]
    exact kept.trans found
  · rw [seenLater]
    exact keptLater.trans (kept.trans found)

/-- An entry that is put at a key with a lone surrogate replaces the one at U+FFFD. -/
theorem keys_of_maps_separate_broken :
    ∃ after, brokenKey.Built ∧ (Key.ofString "\uFFFD").Built ∧
      brokenKey ≠ Key.ofString "\uFFFD" ∧
      ((Command.put ⟨4⟩ brokenKey (.boolean false) true).execute (.within 1)).on
          (withView (flags "\uFFFD") true) = some (.ok true, after) ∧
        ((withView (flags "\uFFFD") true).object? ⟨4⟩).bind (·.getOwn (.ofString "\uFFFD")) =
          some (.bare (.boolean true)) ∧
        (after.object? ⟨4⟩).bind (·.getOwn (.ofString "\uFFFD")) =
          some (.bare (.boolean false)) :=
  ⟨_, .ofText _, .ofString _, by decide, rfl, rfl, rfl⟩

end ObjectModel.Heap
