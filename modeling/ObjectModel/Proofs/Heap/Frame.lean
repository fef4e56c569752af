import ObjectModel.Proofs.Heap.Assignment
import ObjectModel.Proofs.Heap.Quiet
import ObjectModel.Proofs.Heap.Sound
import ObjectModel.Proofs.Object.Isolation

/-!
# What a command on one key leaves alone

To put, to define and to delete a property of a native object leaves all its other properties, and
the order in which they are listed, and all other objects, as long as no native code runs.  The
exceptions are those that arrays make by their kind: an element may push the length, and the length
may drop elements.
-/

namespace ObjectModel.Heap

variable {heap after : Heap} {id : ObjectId} {object : Object} {key : Key} {value : Value}
  {depth : Nat}

/-- How an attempt to write a property of a native object ends if no native code runs. -/
inductive Touches (engine : Engine) (heap : Heap) (id : ObjectId) (key : Key) :
    Except Fault Verdict → Heap → Prop
  | untouched {outcome : Except Fault Verdict}
      (ignored : outcome = .ok .accepted → key.isProto = true) :
      Touches engine heap id key outcome heap
  | mutated (mutation : OwnMutation) {outcome : Except Fault Verdict} {after : Heap}
      (about : mutation.key = key) (stores : mutation.stores = true)
      (ran : (judge engine id (·.mutate mutation)).on heap = some (outcome, after)) :
      Touches engine heap id key outcome after
  | relinked {prototype : Option ObjectId} {result : Except Fault Unit} {after : Heap}
      (isProto : key.isProto = true) (outcome : Except Fault Verdict)
      (ran : (judge engine id fun object => .ok ((), object.setPrototype prototype)).on heap =
        some (result, after)) : Touches engine heap id key outcome after

namespace Touches

variable {outcome : Except Fault Verdict}

theorem of_error (engine : Engine) (fault : Fault) :
    Touches engine heap id key (.error fault) heap :=
  .untouched nofun

theorem of_refused (engine : Engine) (why : Refusal) :
    Touches engine heap id key (.ok (.refused why)) heap :=
  .untouched nofun

theorem of_on_callSetter (steady : heap.Steady) {setter : Option Value} {receiver : Value}
    (ran : (judgeSetter (.within depth) setter key receiver value).on heap = some (outcome, after))
    (quiet : after.log = heap.log) : Touches (.within depth) heap id key outcome after := by
  cases setter with
  | none =>
    cases ran
    exact .of_refused _ _
  | some setter =>
    unfold judgeSetter at ran
    rw [Action.on_bind, Action.on_discard] at ran
    cases called : (call (.within depth) setter receiver [value]).on heap with
    | none =>
      rw [called] at ran
      cases ran
    | some ended =>
      obtain ⟨result, mid⟩ := ended
      obtain ⟨reached, failed⟩ := ensures_call_quieting steady setter receiver [value] _ _ called
      rw [called] at ran
      cases result with
      | ok result =>
        -- A setter that returns has been called, and the call would be recorded.
        cases ran
        obtain ⟨fault, impossible⟩ := failed quiet
        cases impossible
      | error fault =>
        cases ran
        cases reached.2.2.2 quiet
        exact .of_error _ _

theorem of_on_relink {engine : Engine} {prototype : Option ObjectId} (isProto : key.isProto = true)
    (ran : ((judge engine id fun object => .ok ((), object.setPrototype prototype)) >>= fun _ =>
      pure Verdict.accepted).on heap = some (outcome, after)) :
    Touches engine heap id key outcome after := by
  rw [Action.on_bind] at ran
  cases relinked : (judge engine id fun object =>
      .ok ((), object.setPrototype prototype)).on heap with
  | none =>
    rw [relinked] at ran
    cases ran
  | some ended =>
    obtain ⟨_ | _, last⟩ := ended
    all_goals
      rw [relinked] at ran
      cases ran
      exact .relinked isProto _ relinked

theorem of_on_setPrototype (steady : heap.Steady) (ready : heap.Ready id)
    {prototype : Option ObjectId} (isProto : key.isProto = true)
    (ran : (judgePrototype (.within depth) id prototype).on heap = some (outcome, after))
    (quiet : after.log = heap.log) : Touches (.within depth) heap id key outcome after := by
  have amends := bears_recording.withstands.amends (follows_recording depth)
  have relinks : recording.Carries (judge (.within depth) id _) _ := amends.relink id prototype
  have follows (bound : Nat) : quieting.Carries (leadsTo (.within depth) id bound prototype) _ :=
    (serves_quieting depth).simulated.leadsTo id bound prototype
  unfold judgePrototype at ran
  rw [Action.on_bind, ready.on_inspect] at ran
  cases examined : heap.examine id with
  | error fault =>
    rw [examined] at ran
    cases ran
    exact .of_error _ _
  | ok object =>
    simp only [examined] at ran
    split at ran
    next =>
      cases ran
      exact .untouched fun _ => isProto
    next =>
      split at ran
      next =>
        cases ran
        exact .of_refused _ _
      next =>
        rw [Action.on_bind_ok (Action.on_get heap)] at ran
        refine (on_bind_quiet steady (follows _).keeps (fun cyclic => ?_) ran quiet).elim ?_ ?_
        · cases cyclic
          case true => exact .pure _
          case false => exact relinks.keeps.bind fun _ => .pure _
        · rintro ⟨_ | _, ran⟩
          case true =>
            cases ran
            exact .of_refused _ _
          case false => exact of_on_relink isProto ran
        · rintro ⟨fault, rfl, rfl⟩
          exact .of_error _ _

theorem of_on_putUnder (steady : heap.Steady) {found : Option Slot}
    (ran : (judgeUnder (.within depth) id key value found).on heap = some (outcome, after))
    (quiet : after.log = heap.log) : Touches (.within depth) heap id key outcome after := by
  unfold judgeUnder at ran
  split at ran
  next => exact of_on_callSetter steady ran quiet
  next =>
    split at ran
    next => exact .mutated (.add key value) rfl rfl ran
    next =>
      cases ran
      exact .of_refused _ _
  next => exact .mutated (.add key value) rfl rfl ran

theorem of_on_putInherited (steady : heap.Steady)
    (ran : (judgeInherited (.within depth) id key value).on heap = some (outcome, after))
    (quiet : after.log = heap.log) : Touches (.within depth) heap id key outcome after := by
  have serves := bears_recording.serves (follows_recording depth)
  have amends := bears_recording.withstands.amends (follows_recording depth)
  have adds : recording.Carries (judge (.within depth) id (·.mutate (.add key value))) _ :=
    amends.mutate id (.add key value)
  have inherits : quieting.Carries (inherited (.within depth) id key) _ :=
    (serves_quieting depth).simulated.inherited id key
  unfold judgeInherited at ran
  -- No lazy prototype has been constructed, so the property is added to what was there before.
  refine (on_bind_quiet steady inherits.keeps (fun found => ?_) ran quiet).elim ?_ ?_
  · have under : recording.Carries (judgeUnder (.within depth) id key value found) _ :=
      fun heap safe => serves.carriesFrom_judgeUnder safe (adds heap safe) found
    exact under.keeps
  · rintro ⟨found, ran⟩
    exact of_on_putUnder steady ran quiet
  · rintro ⟨fault, rfl, rfl⟩
    exact .of_error _ _

/-- What the object itself and its prototypes have decides which of its properties is stored. -/
theorem of_on_put (steady : heap.Steady) (ready : heap.Ready id)
    (ran : (judgePut (.within depth) id key value).on heap = some (outcome, after))
    (quiet : after.log = heap.log) : Touches (.within depth) heap id key outcome after := by
  unfold judgePut at ran
  rw [Action.on_bind, ready.on_inspect] at ran
  cases examined : heap.examine id with
  | error fault =>
    rw [examined] at ran
    cases ran
    exact .of_error _ _
  | ok object =>
    simp only [examined] at ran
    split at ran
    next => exact of_on_callSetter steady ran quiet
    next => exact .mutated (.write key value) rfl rfl ran
    next =>
      split at ran
      next isProto =>
        cases value
        case object next => exact of_on_setPrototype steady ready isProto ran quiet
        case null => exact of_on_setPrototype steady ready isProto ran quiet
        all_goals
          cases ran
          exact .untouched fun _ => isProto
      next => exact of_on_putInherited steady ran quiet

end Touches

/-- What a command on one key leaves of a heap: all but one native object, and most of that. -/
def Frames (heap : Heap) (id : ObjectId) (object : Object) (key : Key) (stored : Prop)
    (after : Heap) : Prop :=
  ∃ next, heap.Replaced after id next ∧ object.Frames key stored next

/-- Whether nobody holds the cell of a handle. -/
def unheld (heap : Heap) (id : ObjectId) : Bool :=
  (heap.cell? id).any fun cell => cell.borrow = .free

/-- How the deletion of a property of a native object ends. -/
structure Deletes (heap : Heap) (id : ObjectId) (object : Object) (key : Key)
    (outcome : Except Fault Bool) (after : Heap) : Prop where
  frames : heap.Frames id object key False after
  succeeds : outcome = .ok true ↔
    heap.unheld id = true ∧ (object.getOwn key).all Slot.isConfigurable = true
  absent : outcome = .ok true → ∃ next, after.native? id = some next ∧ next.getOwn key = none ∧
    key ∉ next.ownKeys.map Prod.fst

section Framing

variable (native : heap.native? id = some object)

include native

theorem Replaced.refl : heap.Replaced heap id object := by
  have replaced := replaced_exchange native rfl
  rwa [exchange_self native] at replaced

theorem Frames.of_exchange {next : Object} {stored : Prop}
    (frames : object.Frames key stored next) :
    heap.Frames id object key stored (heap.exchange id next) :=
  ⟨next, replaced_exchange native frames.kind, frames⟩

variable (sound : object.Sound)

include sound

theorem Frames.refl {stored : Prop} (unstored : ∀ i, key = .index i → ¬stored) :
    heap.Frames id object key stored heap :=
  ⟨object, .refl native, sound.frames_refl (kind_ne_host native) unstored⟩

theorem frames_on_mutate (engine : Engine) (mutation : OwnMutation) :
    ∃ outcome after, (judge engine id (·.mutate mutation)).on heap = some (outcome, after) ∧
      heap.Frames id object mutation.key (mutation.stores = true ∧ outcome = .ok .accepted)
        after := by
  obtain ⟨cell, found, _⟩ := exists_cell native
  by_cases free : cell.borrow = .free
  · have ran := on_judge_free native found free engine (·.mutate mutation)
    cases mutated : object.mutate mutation with
    | error fault =>
      rw [mutated] at ran
      exact ⟨_, _, ran, .refl native sound fun _ _ => nofun⟩
    | ok ended =>
      obtain ⟨verdict, next⟩ := ended
      rw [mutated] at ran
      have frames := sound.frames_mutate (kind_ne_host native) mutated
      refine ⟨_, _, ran, .of_exchange native ?_⟩
      rwa [Except.ok.injEq]
  · obtain ⟨fault, ran⟩ := on_judge_held native found free engine (·.mutate mutation)
    exact ⟨_, _, ran, .refl native sound fun _ _ => nofun⟩

theorem Touches.frames {engine : Engine} {outcome : Except Fault Verdict}
    (touches : Touches engine heap id key outcome after) :
    heap.Frames id object key (outcome = .ok .accepted) after := by
  cases touches with
  | untouched ignored =>
    apply Frames.refl native sound
    rintro i rfl accepted
    cases ignored accepted
  | mutated mutation about stores ran =>
    obtain ⟨_, _, ranToo, frames⟩ := frames_on_mutate native sound engine mutation
    rw [ran] at ranToo
    cases ranToo
    rwa [about, stores, eq_self, true_and] at frames
  | @relinked prototype _ _ isProto _ ran =>
    have unstored : ∀ i, key = .index i → ¬outcome = .ok .accepted := by
      rintro i rfl
      cases isProto
    obtain ⟨cell, found, _⟩ := exists_cell native
    by_cases free : cell.borrow = .free
    · rw [on_judge_free native found free] at ran
      cases ran
      exact .of_exchange native (sound.frames_setPrototype (kind_ne_host native) unstored prototype)
    · obtain ⟨fault, ranToo⟩ := on_judge_held native found free engine fun object =>
        .ok ((), object.setPrototype prototype)
      rw [ranToo] at ran
      cases ran
      exact .refl native sound unstored

theorem frames_on_put (steady : heap.Steady) {strict : Bool} {outcome : Except Fault Bool}
    (ran : ((Command.put id key value strict).execute (.within depth)).on heap =
      some (outcome, after)) (quiet : after.log = heap.log) :
    heap.Frames id object key (outcome = .ok true) after := by
  obtain ⟨cell, found, _⟩ := exists_cell native
  have ready := ready_of_view found (view?_of_native native found)
  rw [Command.execute_put, on_report] at ran
  obtain ⟨ended, put, same⟩ := Option.map_eq_some_iff.mp ran
  cases same
  rw [report_eq_ok_true_iff]
  exact (Touches.of_on_put steady ready put quiet).frames native sound

theorem frames_on_define (engine : Engine) (key : Key) (request : Request) (strict : Bool) :
    ∃ outcome after,
      ((Command.define id key request strict).execute engine).on heap = some (outcome, after) ∧
        heap.Frames id object key (outcome = .ok true) after := by
  rw [Command.execute_define, on_report]
  unfold judgeDefine
  rw [Action.on_bind, Action.on_ofExcept]
  cases request.validate with
  | error fault => exact ⟨_, _, rfl, .refl native sound fun _ _ => nofun⟩
  | ok _ =>
    obtain ⟨outcome, after, ran, frames⟩ :=
      frames_on_mutate native sound engine (.define key request)
    refine ⟨outcome.bind (Verdict.report strict), after, ?_, ?_⟩
    · exact congrArg (Option.map _) ran
    · rw [report_eq_ok_true_iff]
      have stores : (OwnMutation.define key request).stores = true := rfl
      rwa [stores, eq_self, true_and] at frames

theorem deletes_on_delete (engine : Engine) (key : Key) (strict : Bool) :
    ∃ outcome after,
      ((Command.delete id key strict).execute engine).on heap = some (outcome, after) ∧
        heap.Deletes id object key outcome after := by
  have notHost := kind_ne_host native
  rw [Command.execute_delete, on_report]
  unfold judgeDelete
  obtain ⟨cell, found, _⟩ := exists_cell native
  by_cases free : cell.borrow = .free
  · have unheld : heap.unheld id = true := by simp [Heap.unheld, found, free]
    have deletion := Object.deletion notHost key
    have done :
        object.mutate (.delete key) = .ok ((object.delete key).1, (object.delete key).2) := rfl
    have frames := sound.frames_mutate notHost done
    simp only [OwnMutation.stores, Bool.false_eq_true, false_and] at frames
    have replaced := replaced_exchange native frames.kind
    rw [on_judge_free native found free]
    refine ⟨_, _, rfl, .of_exchange native frames, ?_, ?_⟩
    · rw [report_eq_ok_true_iff, unheld, eq_self, true_and, Except.ok.injEq]
      exact deletion.accepted
    · intro deleted
      have absent := deletion.absent (Except.ok.inj (report_eq_ok_true_iff.mp deleted))
      exact ⟨_, replaced.object, absent,
        (sound.mutate done).not_mem_ownKeys (kind_ne_host replaced.object) absent⟩
  · have held : heap.unheld id = false := by simp [Heap.unheld, found, free]
    obtain ⟨fault, ran⟩ := on_judge_held native found free engine fun object =>
      .ok (object.delete key)
    rw [ran]
    exact
      ⟨_, _, rfl,
        { frames := .refl native sound fun _ _ => not_false
          succeeds := iff_of_false nofun fun both => by
            rw [held] at both
            cases both.1
          absent := nofun }⟩

end Framing

/-- Whether commands on one key leave all else of the native objects of a heap.  To put a property
may run a setter or the factories of prototypes that are lazy, which do what they like; but then
that is recorded. -/
structure FramesKeys (heap : Heap) : Prop where
  put : ∀ {depth id object key value strict outcome after}, heap.native? id = some object →
    ((Command.put id key value strict).execute (.within depth)).on heap = some (outcome, after) →
      after.log = heap.log → heap.Frames id object key (outcome = .ok true) after
  define : ∀ {id object}, heap.native? id = some object → ∀ engine key request strict,
    ∃ outcome after,
      ((Command.define id key request strict).execute engine).on heap = some (outcome, after) ∧
        heap.Frames id object key (outcome = .ok true) after
  delete : ∀ {id object}, heap.native? id = some object → ∀ engine key strict,
    ∃ outcome after,
      ((Command.delete id key strict).execute engine).on heap = some (outcome, after) ∧
        heap.Deletes id object key outcome after

theorem object?_of_native (native : heap.native? id = some object) :
    heap.object? id = some object := by
  obtain ⟨cell, found, _⟩ := exists_cell native
  exact (object?_of_found found).trans (view?_of_native native found)

theorem Upholds.framesKeys (upholds : heap.Upholds Object.soundness) : heap.FramesKeys := by
  have sound {id : ObjectId} {object : Object} (native : heap.native? id = some object) :
      object.Sound := upholds.holds (object?_of_native native)
  exact
    { put := fun native ran quiet => frames_on_put native (sound native) upholds.steady ran quiet
      define := fun native => frames_on_define native (sound native)
      delete := fun native => deletes_on_delete native (sound native) }

/-- In new heaps, and in all heaps that runs of code lead to that builds sound objects, what is done
at one key of a native object leaves all else as it was, as far as the length of an array allows. -/
theorem single_key_frames :
    (∀ policy, (new policy).Upholds Object.soundness) ∧
      ∀ {heap : Heap}, heap.Upholds Object.soundness →
        heap.FramesKeys ∧
        ∀ {depth goal} {code : Code goal} {outcome after},
          code.Obeys (.upholding Object.soundness) →
            (code.run depth).on heap = some (outcome, after) →
              after.Upholds Object.soundness ∧ after.FramesKeys := by
  refine ⟨upholds_soundness_new, fun upholds => ⟨upholds.framesKeys, fun obeys ran => ?_⟩⟩
  have upholdsAfter := upholds.run obeys ran
  exact ⟨upholdsAfter, upholdsAfter.framesKeys⟩

/-- Code that gives an array an element and a further property. -/
def furnishing : Code (.reply .flag) :=
  .ask (.put arrayPrototype (.index 0) .null true) fun _ =>
    .ask (.put arrayPrototype .name .null true) .give

theorem furnishing_obeys : furnishing.Obeys (.upholding Object.soundness) := by
  refine ⟨trivial, fun put => ?_⟩
  cases put with
  | error fault => trivial
  | ok done => exact ⟨trivial, fun put => by cases put <;> trivial⟩

/-- If another element is stored so far away that the array becomes sparse, the first one is still
there, and the length covers both; if the further property is deleted, it is gone. -/
theorem single_key_frames_furnishing :
    ∃ heap array after sparse, (furnishing.run 1).on (new {}) = some (.ok true, heap) ∧
      heap.native? arrayPrototype = some (.array array) ∧ array.length = 1 ∧
      ((Command.put arrayPrototype (.index 100000) .null true).execute (.within 1)).on heap =
        some (.ok true, after) ∧
      after.native? arrayPrototype = some (.array sparse) ∧
      sparse.elements.isSparse = true ∧ sparse.length = 100001 ∧
      sparse.getOwn (.index 0) = some (.bare .null) ∧
      ∃ last next, ((Command.delete arrayPrototype .name true).execute (.within 1)).on heap =
          some (.ok true, last) ∧
        last.native? arrayPrototype = some next ∧ next.getOwn .name = none := by
  obtain ⟨heap, array, after, sparse, ran, native, short, put, quiet, nativeAfter, isSparse,
      element, property, unheld⟩ :
      ∃ heap array after sparse, (furnishing.run 1).on (new {}) = some (.ok true, heap) ∧
        heap.native? arrayPrototype = some (.array array) ∧ array.length = 1 ∧
        ((Command.put arrayPrototype (.index 100000) .null true).execute (.within 1)).on heap =
          some (.ok true, after) ∧ after.log = heap.log ∧
        after.native? arrayPrototype = some (.array sparse) ∧
        sparse.elements.isSparse = true ∧ array.getOwn (.index 0) = some (.bare .null) ∧
        array.getOwn .name = some (.bare .null) ∧ heap.unheld arrayPrototype = true :=
    by exact ⟨_, _, _, _, rfl, rfl, rfl, rfl, rfl, rfl, rfl, rfl, rfl, rfl⟩
  obtain ⟨upholdsNew, frames⟩ := single_key_frames
  obtain ⟨_, framesKeys⟩ := (frames (upholdsNew {})).2 furnishing_obeys ran
  obtain ⟨next, replaced, framed⟩ := framesKeys.put native put quiet
  cases replaced.object.symm.trans nativeAfter
  have kept :
      array.Frames (.index 100000) (Except.ok true = (.ok true : Except Fault Bool)) sparse := by
    cases framed with
    | array frames => exact frames
    | other notArray => exact absurd rfl notArray
  have covered := kept.covers 100000 rfl rfl
  rw [short] at covered
  have same := kept.property (.index 0) (by decide) (by decide) nofun
  obtain ⟨outcome, last, deleted, deletes⟩ := framesKeys.delete native (.within 1) .name true
  cases deletes.succeeds.mpr ⟨unheld, congrArg (Option.all Slot.isConfigurable) property⟩
  obtain ⟨without, nativeLast, absent, _⟩ := deletes.absent rfl
  exact ⟨heap, array, after, sparse, ran, native, short, put, nativeAfter, isSparse, covered,
    same.trans element, last, without, deleted, nativeLast, absent⟩

end ObjectModel.Heap
