import Mathlib.Data.List.Forall2
import ObjectModel.Proofs.Object.Mutation

/-!
# Calls at a view

A host collection changes through calls at a view on it, and beside the view by what the host does.
A reference knows only what matters of a view, and only the calls that concern it.  Where it agrees
with the view on every single call, it foretells every series of calls: what is left at the end, and
each answer that is its business.
-/

namespace ObjectModel

/-- A call at a view, or an edit by the host, after which the collection holds `contents`. -/
inductive ViewCall (σ : Type)
  | getOwn (key : Key)
  | own (mutation : OwnMutation) (strict : Bool)
  | setPrototype (prototype : Option ObjectId)
  | preventExtensions
  | edited (contents : σ)

def ViewCall.isEdit {σ : Type} : ViewCall σ → Bool
  | .edited _ => true
  | _ => false

/-- What a view answers. -/
inductive ViewAnswer
  | slot (found : Option Slot)
  | outcome (outcome : Except Fault Bool)
  | done

/-- What is done at views of one kind on collections with contents of one kind. -/
structure ViewOperations (σ τ : Type) where
  getOwn : τ → Key → Option Slot
  mutateOwn : OwnMutation → Bool → Mutation τ Bool
  setPrototype : τ → Option ObjectId → τ
  preventExtensions : τ → τ
  /-- The view after the host has changed the contents. -/
  edited : τ → σ → τ

/-- Whether the operations on views of a kind are those of the objects that the views are. -/
structure ViewOperations.ActAs {σ τ : Type} (operations : ViewOperations σ τ) (wrap : τ → Object) :
    Prop where
  getOwn : ∀ view key, (wrap view).getOwn key = operations.getOwn view key
  mutateOwn : ∀ view mutation strict, (Object.mutateOwn mutation strict).on (wrap view) =
    ((operations.mutateOwn mutation strict).on view).map id wrap
  setPrototype : ∀ view prototype,
    (wrap view).setPrototype prototype = wrap (operations.setPrototype view prototype)
  preventExtensions : ∀ view,
    (wrap view).preventExtensions = wrap (operations.preventExtensions view)

/-- What is known of views of one kind, and what a mutation comes to.  There is no answer where the
collection is not concerned; then it stays as it is. -/
structure ViewReference (σ ρ : Type) where
  getOwn? : ρ → Key → Option (Option Slot)
  mutate? : ρ → OwnMutation → Option (Except Fault (Verdict × ρ))
  preventExtensions : ρ → ρ
  edited : ρ → σ → ρ

/-- The answers to calls one after another, and the state at the end. -/
def responses {τ κ α : Type} (respond : τ → κ → α × τ) : τ → List κ → List α × τ
  | state, [] => ([], state)
  | state, call :: rest =>
    let (first, next) := respond state call
    let (others, final) := responses respond next rest
    (first :: others, final)

section Responses

variable {τ κ α : Type} {respond : τ → κ → α × τ}

theorem responses_cons_snd (state : τ) (call : κ) (rest : List κ) :
    (responses respond state (call :: rest)).2 =
      (responses respond (respond state call).2 rest).2 :=
  rfl

theorem responses_append_snd (state : τ) (first rest : List κ) :
    (responses respond state (first ++ rest)).2 =
      (responses respond (responses respond state first).2 rest).2 := by
  induction first generalizing state with
  | nil => rfl
  | cons call others inductionHypothesis => exact inductionHypothesis (respond state call).2

theorem responses_keep (keeps : τ → Prop) {calls : List κ}
    (step : ∀ call ∈ calls, ∀ state, keeps state → keeps (respond state call).2) {state : τ}
    (start : keeps state) : keeps (responses respond state calls).2 := by
  induction calls generalizing state with
  | nil => exact start
  | cons call rest inductionHypothesis =>
    have next : keeps (respond state call).2 := step call List.mem_cons_self state start
    exact inductionHypothesis (fun other member => step other (List.mem_cons_of_mem _ member)) next

/-- What one call of a series achieves and all calls keep holds at the end. -/
theorem responses_achieve (keeps : τ → Prop) {calls : List κ} {achieving : κ}
    (member : achieving ∈ calls) (achieves : ∀ state, keeps (respond state achieving).2)
    (step : ∀ call state, keeps state → keeps (respond state call).2) (state : τ) :
    keeps (responses respond state calls).2 := by
  obtain ⟨before, after, rfl⟩ := List.append_of_mem member
  rw [responses_append_snd, responses_cons_snd]
  exact responses_keep keeps (fun call _ => step call) (achieves _)

end Responses

namespace ViewOperations

variable {σ τ : Type}

def respond (operations : ViewOperations σ τ) (view : τ) : ViewCall σ → ViewAnswer × τ
  | .getOwn key => (.slot (operations.getOwn view key), view)
  | .own mutation strict => ((operations.mutateOwn mutation strict).on view).map .outcome id
  | .setPrototype prototype => (.done, operations.setPrototype view prototype)
  | .preventExtensions => (.done, operations.preventExtensions view)
  | .edited contents => (.done, operations.edited view contents)

/-- The answers of a view to calls one after another, and the view at the end. -/
def run (operations : ViewOperations σ τ) : τ → List (ViewCall σ) → List ViewAnswer × τ :=
  responses operations.respond

end ViewOperations

namespace ViewReference

variable {σ ρ : Type}

def respond (reference : ViewReference σ ρ) (known : ρ) : ViewCall σ → Option ViewAnswer × ρ
  | .getOwn key => ((reference.getOwn? known key).map .slot, known)
  | .own mutation strict =>
    match reference.mutate? known mutation with
    | some judged => (Verdict.settle strict known judged).map (some ∘ .outcome) id
    | none => (none, known)
  | .setPrototype _ => (some .done, known)
  | .preventExtensions => (some .done, reference.preventExtensions known)
  | .edited contents => (some .done, reference.edited known contents)

def run (reference : ViewReference σ ρ) : ρ → List (ViewCall σ) → List (Option ViewAnswer) × ρ :=
  responses reference.respond

end ViewReference

/-- Whether an answer is the one that is foretold, if one is. -/
def ViewAnswer.Foretold (answer : ViewAnswer) (expected : Option ViewAnswer) : Prop :=
  ∀ wanted, expected = some wanted → answer = wanted

/-- Whether a run ends and answers as foretold, where `known` is what is known of the state. -/
structure Foretells {τ ρ : Type} (known : τ → ρ) (expected : List (Option ViewAnswer) × ρ)
    (actual : List ViewAnswer × τ) : Prop where
  final : known actual.2 = expected.2
  answers : List.Forall₂ ViewAnswer.Foretold actual.1 expected.1

/-- Whether a reference agrees with the views of a kind on each operation. -/
structure ViewReference.Describes {σ τ ρ : Type} (reference : ViewReference σ ρ) (known : τ → ρ)
    (operations : ViewOperations σ τ) : Prop where
  getOwn : ∀ view key found, reference.getOwn? (known view) key = some found →
    operations.getOwn view key = found
  /-- A mutation of the collection has the same outcome. -/
  concerned : ∀ view mutation strict judged, reference.mutate? (known view) mutation = some judged →
    ((operations.mutateOwn mutation strict).on view).map id known =
      Verdict.settle strict (known view) judged
  /-- Any other mutation is none of the collection. -/
  unconcerned : ∀ view mutation strict, reference.mutate? (known view) mutation = none →
    known ((operations.mutateOwn mutation strict).on view).2 = known view
  setPrototype : ∀ view prototype, known (operations.setPrototype view prototype) = known view
  preventExtensions : ∀ view,
    known (operations.preventExtensions view) = reference.preventExtensions (known view)
  edited : ∀ view contents,
    known (operations.edited view contents) = reference.edited (known view) contents

namespace ViewReference.Describes

variable {σ τ ρ : Type} {known : τ → ρ} {reference : ViewReference σ ρ}
  {operations : ViewOperations σ τ}

theorem respond_own (describes : reference.Describes known operations) (view : τ)
    (mutation : OwnMutation) (strict : Bool) :
    known (operations.respond view (.own mutation strict)).2 =
        (reference.respond (known view) (.own mutation strict)).2 ∧
      (operations.respond view (.own mutation strict)).1.Foretold
        (reference.respond (known view) (.own mutation strict)).1 := by
  simp only [ViewOperations.respond, ViewReference.respond]
  cases expected : reference.mutate? (known view) mutation with
  | none =>
    exact ⟨describes.unconcerned view mutation strict expected, fun _ unknown => nomatch unknown⟩
  | some judged =>
    have same := describes.concerned view mutation strict judged expected
    refine ⟨congrArg Prod.snd same, fun wanted foretold => ?_⟩
    have outcomes := congrArg (ViewAnswer.outcome ∘ Prod.fst) same
    exact outcomes.trans (Option.some.inj foretold)

theorem respond (describes : reference.Describes known operations) (view : τ)
    (call : ViewCall σ) :
    known (operations.respond view call).2 = (reference.respond (known view) call).2 ∧
      (operations.respond view call).1.Foretold (reference.respond (known view) call).1 := by
  cases call with
  | getOwn key =>
    refine ⟨rfl, fun wanted expected => ?_⟩
    obtain ⟨found, read, rfl⟩ := Option.map_eq_some_iff.mp expected
    exact congrArg ViewAnswer.slot (describes.getOwn view key found read)
  | own mutation strict => exact describes.respond_own view mutation strict
  | setPrototype prototype =>
    exact ⟨describes.setPrototype view prototype, fun _ wanted => Option.some.inj wanted⟩
  | preventExtensions =>
    exact ⟨describes.preventExtensions view, fun _ wanted => Option.some.inj wanted⟩
  | edited contents =>
    exact ⟨describes.edited view contents, fun _ wanted => Option.some.inj wanted⟩

/-- A reference that agrees with views on each operation foretells every series of calls. -/
theorem foretells (describes : reference.Describes known operations) (view : τ)
    (calls : List (ViewCall σ)) :
    Foretells known (reference.run (known view) calls) (operations.run view calls) := by
  induction calls generalizing view with
  | nil => exact ⟨rfl, .nil⟩
  | cons call rest inductionHypothesis =>
    obtain ⟨left, answered⟩ := describes.respond view call
    have others := inductionHypothesis (operations.respond view call).2
    rw [left] at others
    exact ⟨others.final, .cons answered others.answers⟩

end ViewReference.Describes

/-- Whether views of a kind that are closed stay closed, whatever is done, and let something stay as
it is unless the host changes it. -/
structure ViewOperations.Secures {σ τ : Type} (operations : ViewOperations σ τ)
    (closed : τ → Prop) (stays : τ → τ → Prop) : Prop where
  refl : ∀ view, stays view view
  trans : ∀ {first second third}, stays first second → stays second third → stays first third
  mutateOwn : ∀ {view} mutation strict, closed view →
    closed ((operations.mutateOwn mutation strict).on view).2 ∧
      stays view ((operations.mutateOwn mutation strict).on view).2
  setPrototype : ∀ {view} prototype, closed view →
    closed (operations.setPrototype view prototype) ∧
      stays view (operations.setPrototype view prototype)
  preventExtensions : ∀ view, closed (operations.preventExtensions view) ∧
    stays view (operations.preventExtensions view)
  edited : ∀ {view} contents, closed view → closed (operations.edited view contents)

namespace ViewOperations.Secures

variable {σ τ : Type} {operations : ViewOperations σ τ} {closed : τ → Prop}
  {stays : τ → τ → Prop} {view : τ}

theorem respond (secures : operations.Secures closed stays) (shut : closed view)
    {call : ViewCall σ} (unedited : call.isEdit = false) :
    closed (operations.respond view call).2 ∧ stays view (operations.respond view call).2 := by
  cases call with
  | getOwn key => exact ⟨shut, secures.refl view⟩
  | own mutation strict => exact secures.mutateOwn mutation strict shut
  | setPrototype prototype => exact secures.setPrototype prototype shut
  | preventExtensions => exact secures.preventExtensions view
  | edited contents => cases unedited

theorem run_closed (secures : operations.Secures closed stays) {calls : List (ViewCall σ)}
    (shut : closed view ∨ .preventExtensions ∈ calls) :
    closed (operations.run view calls).2 := by
  have step (call : ViewCall σ) (state : τ) (shut : closed state) :
      closed (operations.respond state call).2 := by
    cases call with
    | edited contents => exact secures.edited contents shut
    | _ => exact (secures.respond shut rfl).1
  rcases shut with shut | prevented
  · exact responses_keep closed (fun call _ => step call) shut
  · exact responses_achieve closed prevented (fun state => (secures.preventExtensions state).1) step
      view

/-- From when a view is closed, only the host changes what is to stay. -/
theorem run_stays (secures : operations.Secures closed stays) {calls later : List (ViewCall σ)}
    (shut : closed view ∨ .preventExtensions ∈ calls)
    (unedited : ∀ call ∈ later, call.isEdit = false) :
    stays (operations.run view calls).2 (operations.run view (calls ++ later)).2 := by
  have start := secures.run_closed shut
  rw [ViewOperations.run, responses_append_snd]
  refine (responses_keep (fun state => closed state ∧ stays (operations.run view calls).2 state) ?_
    ⟨start, secures.refl _⟩).2
  intro call member state ⟨shut, kept⟩
  obtain ⟨shutNext, keptNext⟩ := secures.respond shut (unedited call member)
  exact ⟨shutNext, secures.trans kept keptNext⟩

end ViewOperations.Secures

end ObjectModel
