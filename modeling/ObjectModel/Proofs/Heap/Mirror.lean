import ObjectModel.Proofs.Heap.Alike

/-!
# Actions that mirror each other

An action is mirrored by a family of actions, one for each depth, if however it ends on a heap, all
deep enough members of the family end in the same way on any heap that is alike, and the heaps are
alike again.  Only deep enough members, for a lazy object takes its factory one more level.
-/

namespace ObjectModel

/-- Whether outcomes correspond: results that are related, or the same fault. -/
inductive Corresponds {α : Type} (results : α → α → Prop) : Except Fault α → Except Fault α → Prop
  | ok {result image : α} (related : results result image) :
      Corresponds results (.ok result) (.ok image)
  | error (fault : Fault) : Corresponds results (.error fault) (.error fault)

namespace Corresponds

variable {α β : Type} {results : α → α → Prop} {outcome image : Except Fault α}

theorem eq_of_eq (corresponds : Corresponds Eq outcome image) : image = outcome := by
  cases corresponds with
  | ok same => rw [same]
  | error fault => rfl

theorem bind {final : β → β → Prop} {next nextImage : α → Except Fault β}
    (corresponds : Corresponds results outcome image)
    (correspondsNext : ∀ result resultImage, results result resultImage →
      Corresponds final (next result) (nextImage resultImage)) :
    Corresponds final (outcome.bind next) (image.bind nextImage) := by
  cases corresponds with
  | ok related => exact correspondsNext _ _ related
  | error fault => exact .error fault

theorem map {final : β → β → Prop} (corresponds : Corresponds results outcome image) {f : α → β}
    (related : ∀ result resultImage, results result resultImage →
      final (f result) (f resultImage)) : Corresponds final (outcome.map f) (image.map f) := by
  cases corresponds with
  | ok both => exact .ok (related _ _ both)
  | error fault => exact .error fault

end Corresponds

namespace Action

variable {α β : Type} {heap image : Heap}

/-- Whether all deep enough members of a family end the same way on a heap. -/
def Settles (family : Nat → Action α) (heap : Heap) (ended : Except Fault α × Heap) : Prop :=
  Eventually fun depth => (family depth).on heap = some ended

namespace Settles

variable {family : Nat → Action α} {mid : Heap}

theorem bind_ok {result : α} {next : Nat → α → Action β} {ended : Except Fault β × Heap}
    (first : Settles family heap (.ok result, mid))
    (second : Settles (fun depth => next depth result) mid ended) :
    Settles (fun depth => family depth >>= next depth) heap ended := by
  apply (first.and second).mono
  intro depth both
  rw [on_bind_ok both.1]
  exact both.2

theorem bind_error {fault : Fault} (first : Settles family heap (.error fault, mid))
    (next : Nat → α → Action β) :
    Settles (fun depth => family depth >>= next depth) heap (.error fault, mid) :=
  first.mono fun _ ran => on_bind_error ran _

end Settles

/-- Whether an action on a heap is mirrored by a family of actions on another one. -/
def MirrorsFrom (heap image : Heap) (results : α → α → Prop) (action : Action α)
    (family : Nat → Action α) : Prop :=
  action.Ensures heap fun outcome after =>
    ∃ outcomeImage afterImage, Settles family image (outcomeImage, afterImage) ∧
      Corresponds results outcome outcomeImage ∧ after.Alike afterImage

/-- Whether an action is mirrored by a family of actions on heaps that are alike. -/
def Mirrors (results : α → α → Prop) (action : Action α) (family : Nat → Action α) : Prop :=
  ∀ heap image, heap.Alike image → action.MirrorsFrom heap image results family

namespace MirrorsFrom

variable {action : Action α} {family : Nat → Action α} {results : α → α → Prop}

theorem of_on {outcome outcomeImage : Except Fault α} {after afterImage : Heap}
    (ran : action.on heap = some (outcome, after))
    (ranImage : ∀ depth, (family depth).on image = some (outcomeImage, afterImage))
    (corresponds : Corresponds results outcome outcomeImage) (alike : after.Alike afterImage) :
    action.MirrorsFrom heap image results family :=
  Ensures.of_on ran ⟨outcomeImage, afterImage, .of_forall ranImage, corresponds, alike⟩

theorem of_heap {other : Action α} {mid : Heap} (same : action.on heap = other.on mid)
    (mirrors : other.MirrorsFrom mid image results family) :
    action.MirrorsFrom heap image results family := by
  intro outcome after ran
  rw [same] at ran
  exact mirrors outcome after ran

theorem of_image {other : Nat → Action α} {mid : Heap}
    (same : Eventually fun depth => (family depth).on image = (other depth).on mid)
    (mirrors : action.MirrorsFrom heap mid results other) :
    action.MirrorsFrom heap image results family := by
  refine mirrors.mono ?_
  rintro outcome after ⟨outcomeImage, afterImage, settles, corresponds, alike⟩
  refine ⟨outcomeImage, afterImage, (settles.and same).mono ?_, corresponds, alike⟩
  intro depth both
  exact both.2.trans both.1

theorem bind {final : β → β → Prop} {next : α → Action β} {nextImage : Nat → α → Action β}
    (mirrors : action.MirrorsFrom heap image results family)
    (mirrorsNext : ∀ result resultImage, results result resultImage →
      (next result).Mirrors final fun depth => nextImage depth resultImage) :
    (action >>= next).MirrorsFrom heap image final fun depth =>
      family depth >>= nextImage depth := by
  refine Ensures.bind mirrors ?_ ?_
  · rintro result after ⟨outcomeImage, afterImage, settles, corresponds, alike⟩
    cases corresponds with
    | ok related =>
      refine (mirrorsNext result _ related after afterImage alike).mono ?_
      rintro outcome last ⟨lastOutcome, lastImage, settlesNext, correspondsLast, alikeLast⟩
      exact ⟨lastOutcome, lastImage, settles.bind_ok settlesNext, correspondsLast, alikeLast⟩
  · rintro fault after ⟨outcomeImage, afterImage, settles, corresponds, alike⟩
    cases corresponds with
    | error fault => exact ⟨_, afterImage, settles.bind_error _, .error fault, alike⟩

/-- After actions that only read, the next ones run on the same heaps. -/
theorem bind_reading {final : β → β → Prop} {next : α → Action β} {nextImage : Nat → α → Action β}
    {outcome outcomeImage : Except Fault α} (alike : heap.Alike image)
    (ran : action.on heap = some (outcome, heap))
    (ranImage : ∀ depth, (family depth).on image = some (outcomeImage, image))
    (corresponds : Corresponds results outcome outcomeImage)
    (mirrorsNext : ∀ result resultImage, outcome = .ok result → outcomeImage = .ok resultImage →
      results result resultImage →
        (next result).MirrorsFrom heap image final fun depth => nextImage depth resultImage) :
    (action >>= next).MirrorsFrom heap image final fun depth =>
      family depth >>= nextImage depth := by
  cases corresponds with
  | error fault =>
    exact .of_on (on_bind_error ran next) (fun depth => on_bind_error (ranImage depth) _)
      (.error fault) alike
  | ok related =>
    intro last after ranBoth
    rw [on_bind_ok ran] at ranBoth
    obtain ⟨lastOutcome, lastImage, settles, correspondsLast, alikeLast⟩ :=
      mirrorsNext _ _ rfl rfl related last after ranBoth
    exact ⟨lastOutcome, lastImage, Settles.bind_ok (.of_forall ranImage) settles, correspondsLast,
      alikeLast⟩

end MirrorsFrom

namespace Mirrors

variable {action : Action α} {family : Nat → Action α} {results : α → α → Prop}

theorem pure {result resultImage : α} (related : results result resultImage) :
    Mirrors results (pure result : Action α) fun _ => pure resultImage :=
  fun heap image alike => .of_on (on_pure result heap) (fun _ => on_pure resultImage image)
    (.ok related) alike

theorem throw (fault : Fault) :
    Mirrors results (throw fault : Action α) fun _ => throw fault :=
  fun heap image alike => .of_on (on_throw fault heap) (fun _ => on_throw fault image)
    (.error fault) alike

theorem ofExcept {outcome outcomeImage : Except Fault α}
    (corresponds : Corresponds results outcome outcomeImage) :
    Mirrors results (ofExcept outcome) fun _ => ofExcept outcomeImage :=
  fun heap image alike => .of_on (on_ofExcept outcome heap)
    (fun _ => on_ofExcept outcomeImage image) corresponds alike

theorem get : Mirrors Heap.Alike (MonadState.get : Action Heap) fun _ => MonadState.get :=
  fun heap image alike => .of_on (on_get heap) (fun _ => on_get image) (.ok alike) alike

theorem modify {change changeImage : Heap → Heap}
    (alikeAfter : ∀ {heap image}, Heap.Alike heap image → (change heap).Alike (changeImage image)) :
    Mirrors Eq (modify change : Action PUnit) fun _ => (modify changeImage : Action PUnit) :=
  fun heap image alike => .of_on (on_modify change heap) (fun _ => on_modify changeImage image)
    (.ok rfl) (alikeAfter alike)

theorem set {next nextImage : Heap} (alikeNext : next.Alike nextImage) :
    Mirrors Eq (set next : Action PUnit) fun _ => (set nextImage : Action PUnit) :=
  fun heap image _ =>
    .of_on (on_set next heap) (fun _ => on_set nextImage image) (.ok rfl) alikeNext

theorem exhausted (family : Nat → Action α) : Mirrors results (exhausted : Action α) family := by
  intro heap image alike outcome after ran
  cases ran

theorem bind {final : β → β → Prop} {next : α → Action β} {nextImage : Nat → α → Action β}
    (mirrors : action.Mirrors results family)
    (mirrorsNext : ∀ result resultImage, results result resultImage →
      (next result).Mirrors final fun depth => nextImage depth resultImage) :
    (action >>= next).Mirrors final fun depth => family depth >>= nextImage depth :=
  fun heap image alike => (mirrors heap image alike).bind mirrorsNext

theorem bind_eq {final : β → β → Prop} {next : α → Action β} {nextImage : Nat → α → Action β}
    (mirrors : action.Mirrors Eq family)
    (mirrorsNext : ∀ result, (next result).Mirrors final fun depth => nextImage depth result) :
    (action >>= next).Mirrors final fun depth => family depth >>= nextImage depth := by
  apply mirrors.bind
  rintro result _ rfl
  exact mirrorsNext result

theorem attempt (mirrors : action.Mirrors results family) :
    (attempt action).Mirrors (Corresponds results) fun depth => attempt (family depth) := by
  intro heap image alike outcome after ran
  rw [on_attempt] at ran
  obtain ⟨⟨ended, last⟩, first, same⟩ := Option.map_eq_some_iff.mp ran
  cases same
  obtain ⟨endedImage, afterImage, settles, corresponds, alikeAfter⟩ :=
    mirrors heap image alike ended last first
  refine ⟨.ok endedImage, afterImage, settles.mono ?_, .ok corresponds, alikeAfter⟩
  intro depth ranImage
  rw [on_attempt, ranImage]
  rfl

end Mirrors

end Action

end ObjectModel
