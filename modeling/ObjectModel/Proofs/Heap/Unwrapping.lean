import ObjectModel.Proofs.Heap.Mirror

/-!
# Construction on heaps that are alike

To construct an object on two heaps that are alike, factories may have to be entered on one of them
that are unwrapped already on the other.  In the end the heaps are alike again, and the object is
the same on both.
-/

namespace ObjectModel

open ObjectModel.Action (Mirrors MirrorsFrom)

/-- How results of native code are alike. -/
def Goal.Alike : (goal : Goal) → goal.Result → goal.Result → Prop
  | .reply _ => Eq
  | .representation => Representation.Alike

/-- Whether bounds for the depth of calls exceed any number in the end. -/
def Unbounded (rounds : Nat → Nat) : Prop := ∀ least, Eventually fun depth => least ≤ rounds depth

theorem Unbounded.pred {rounds : Nat → Nat} (unbounded : Unbounded rounds) :
    Unbounded fun depth => rounds depth - 1 :=
  fun least => (unbounded (least + 1)).mono fun _ => Nat.le_sub_of_add_le

/-- Whether what an engine runs is mirrored by what a family of engines runs. -/
structure Engine.Mirrors (engine : Engine) (engines : Nat → Engine) : Prop where
  unbounded : Unbounded fun depth => (engines depth).depth
  run : ∀ {goal : Goal} {code image : Code goal}, code.Alike image →
    (engine.run code).Mirrors goal.Alike fun depth => (engines depth).run image
  enters : ∀ {factory : Code .representation} {built : Representation}, factory.Yields built →
    ∀ {heap ended}, (engine.run factory).on heap = some ended → ended = (.ok built, heap)
  settles : ∀ {factory : Code .representation} {built : Representation}, factory.Yields built →
    ∀ heap, Action.Settles (fun depth => (engines depth).run factory) heap (.ok built, heap)

namespace Heap

variable {heap image : Heap} {id : ObjectId} {cell cellImage : ObjectCell Representation}

theorem Alike.held (alike : heap.Alike image) (id : ObjectId) :
    Corresponds ObjectCell.Alike (heap.held id) (image.held id) := by
  unfold Heap.held
  rcases alike.cases id with ⟨absent, absentImage⟩ | ⟨_, _, found, foundImage, alikeCell⟩
  · rw [absent, absentImage]
    exact .error _
  · rw [found, foundImage]
    exact .ok alikeCell

end Heap

namespace ObjectCell.Alike

variable {cell image : ObjectCell Representation}

section Reading

variable {results : Representation → Representation → Prop}

theorem read (alike : cell.Alike image) (related : results cell.value image.value) :
    Corresponds results cell.read image.read := by
  unfold ObjectCell.read
  rw [alike.borrow]
  cases cell.borrow with
  | exclusive => exact .error _
  | free => exact .ok related
  | shared readers => exact .ok related

theorem readForWriting (alike : cell.Alike image) (related : results cell.value image.value) :
    Corresponds results cell.readForWriting image.readForWriting := by
  unfold ObjectCell.readForWriting
  rw [alike.borrow]
  cases cell.borrow with
  | free => exact .ok related
  | exclusive => exact .error _
  | shared readers => exact .error _

end Reading

theorem eq_new (alike : cell.Alike image) {representation : Representation}
    (value : cell.value = representation) (lazy : representation.isLazy = true) :
    cell = .new representation := by
  have free := alike.free (.inl (value ▸ lazy))
  obtain ⟨_, _⟩ := cell
  cases value
  cases free
  rfl

/-- A lazy object may be replaced by anything that is like what it is like. -/
theorem new (alike : cell.Alike image) (lazy : image.value.isLazy = true)
    {built : Representation} (alikeBuilt : cell.value.Alike built) : cell.Alike (.new built) := by
  have free := alike.free (.inr lazy)
  exact ⟨alikeBuilt, free.symm, fun _ => free⟩

end ObjectCell.Alike

namespace Heap

variable {heap image : Heap} {id : ObjectId} {cell cellImage : ObjectCell Representation}

theorem mirrors_install {representation new : Representation} (alikeNew : representation.Alike new)
    (id : ObjectId) : (install id representation).Mirrors Eq fun _ => install id new := by
  intro heap image alike
  refine .bind_reading alike (on_cellOf heap id) (fun _ => on_cellOf image id) (alike.held id) ?_
  intro cell cellImage held heldImage alikeCell
  have found := cell?_of_held held
  have foundImage := cell?_of_held heldImage
  obtain ⟨value, borrow⟩ := cell
  obtain ⟨valueImage, borrowImage⟩ := cellImage
  cases alikeCell.borrow
  cases borrow with
  | free =>
    have stored := alike.setCell found foundImage
      (⟨alikeNew, rfl, fun _ => rfl⟩ : ObjectCell.Alike (.new representation) (.new new))
    exact .of_on rfl (fun _ => rfl) (.ok rfl) stored
  | shared readers => exact .of_on rfl (fun _ => rfl) (.error _) alike
  | exclusive => exact .of_on rfl (fun _ => rfl) (.error _) alike

theorem Alike.look (alike : heap.Alike image) (id : ObjectId) :
    Corresponds Representation.Alike (heap.look id) (image.look id) :=
  (alike.held id).bind fun _ _ alikeCell => alikeCell.read alikeCell.value

end Heap

namespace Engine.Mirrors

variable {engine : Engine} {engines : Nat → Engine} (mirrors : engine.Mirrors engines)
  {heap image : Heap} {id : ObjectId} {cell cellImage : ObjectCell Representation}

include mirrors

theorem mirrorsFrom_enterFactory {factory factoryImage : Code .representation}
    (factories : factory.Alike factoryImage) (alike : heap.Alike image)
    (pending : heap.cell? id = some (.new (.pending factory)))
    (pendingImage : image.cell? id = some (.new (.pending factoryImage))) :
    (Heap.enterFactory engine id).MirrorsFrom heap image Eq fun depth =>
      Heap.enterFactory (engines depth) id := by
  have spent : ObjectCell.Alike (.new .spent) (.new .spent) :=
    ⟨Representation.alike_self .spent, rfl, fun _ => rfl⟩
  have entered : (heap.entered id).Alike (image.entered id) :=
    (alike.setCell pending pendingImage spent).record (.factory id)
  have onward : (engine.run factory >>= fun built =>
      Heap.install id built >>= fun _ => pure true).Mirrors Eq fun depth =>
        (engines depth).run factoryImage >>= fun built =>
          Heap.install id built >>= fun _ => pure true := by
    apply (mirrors.run factories).bind
    intro built builtImage alikeBuilt
    exact (Heap.mirrors_install alikeBuilt id).bind_eq fun _ => .pure rfl
  apply MirrorsFrom.of_heap (Heap.on_enterFactory_pending pending)
  refine MirrorsFrom.of_image (.of_forall fun depth => ?_) (onward _ _ entered)
  exact Heap.on_enterFactory_pending pendingImage

/-- To unwrap an object first changes nothing for whoever constructs it. -/
theorem on_constructWithin_unwrapped {factory : Code .representation} {built : Representation}
    (yields : factory.Yields built) (pending : heap.cell? id = some (.new (.pending factory)))
    {rounds : Nat → Nat} (unbounded : Unbounded rounds) :
    Eventually fun depth =>
      (Heap.constructWithin (engines depth) id (rounds depth)).on heap =
        (Heap.constructWithin (engines depth) id (rounds depth - 1)).on
          (heap.unwrapped id built) := by
  have spent : (heap.entered id).cell? id = some (.new .spent) := by
    rw [Heap.cell?_entered pending, if_pos rfl]
  apply ((mirrors.settles yields (heap.entered id)).and (unbounded 1)).mono
  rintro depth ⟨ran, enough⟩
  obtain ⟨rest, more⟩ : ∃ rest, rounds depth = rest + 1 :=
    ⟨rounds depth - 1, (Nat.sub_add_cancel enough).symm⟩
  rw [more]
  exact Heap.on_constructWithin_built pending ran spent rest

theorem mirrorsFrom_unwrapped {factory : Code .representation} {built : Representation}
    (yields : factory.Yields built) (pending : heap.cell? id = some (.new (.pending factory)))
    {family : Nat → Action Unit} {fuel : Nat}
    (onBuilt : ∀ less, fuel = less + 1 → (Heap.constructWithin engine id less).MirrorsFrom
      (heap.unwrapped id built) image Eq family) :
    (Heap.constructWithin engine id fuel).MirrorsFrom heap image Eq family := by
  have spent : (heap.entered id).cell? id = some (.new .spent) := by
    rw [Heap.cell?_entered pending, if_pos rfl]
  cases running : (engine.run factory).on (heap.entered id) with
  | none =>
    have entering : (Heap.enterFactory engine id).on heap = none := by
      rw [Heap.on_enterFactory_pending pending, Action.on_bind, running]
    intro outcome after ran
    cases fuel <;>
      · unfold Heap.constructWithin at ran
        rw [Action.on_bind, entering] at ran
        cases ran
  | some ended =>
    cases mirrors.enters yields running
    cases fuel with
    | zero =>
      intro outcome after ran
      unfold Heap.constructWithin at ran
      rw [Action.on_bind_ok (Heap.on_enterFactory_built pending running spent)] at ran
      cases ran
    | succ less =>
      exact .of_heap (Heap.on_constructWithin_built pending running spent less) (onBuilt less rfl)

omit mirrors in
theorem mirrorsFrom_ready (alike : heap.Alike image) (ready : heap.Ready id)
    (readyImage : image.Ready id) (fuel : Nat) (rounds : Nat → Nat) :
    (Heap.constructWithin engine id fuel).MirrorsFrom heap image Eq fun depth =>
      Heap.constructWithin (engines depth) id (rounds depth) := by
  exact .of_on (ready.on_constructWithin engine fuel)
    (fun depth => readyImage.on_constructWithin (engines depth) (rounds depth))
    ((alike.look id).map fun _ _ _ => rfl) alike

section Onward

/- What is built in a round is constructed in the rounds that are left. -/
variable {fuel : Nat} (onward : ∀ less, fuel = less + 1 → ∀ rounds, Unbounded rounds →
  (Heap.constructWithin engine id less).Mirrors Eq fun depth =>
    Heap.constructWithin (engines depth) id (rounds depth))

include onward

theorem mirrorsFrom_congruent {rounds : Nat → Nat} (unbounded : Unbounded rounds)
    (alike : heap.Alike image) (found : heap.cell? id = some cell)
    (foundImage : image.cell? id = some cellImage) (alikeCell : cell.Alike cellImage)
    (congruent : cell.value.Congruent cellImage.value) :
    (Heap.constructWithin engine id fuel).MirrorsFrom heap image Eq fun depth =>
      Heap.constructWithin (engines depth) id (rounds depth) := by
  obtain ⟨value, borrow⟩ := cell
  obtain ⟨valueImage, borrowImage⟩ := cellImage
  -- Congruent representations are lazy together.
  have constructed (eager : value.isLazy = false) (eagerImage : valueImage.isLazy = false) :
      (Heap.constructWithin engine id fuel).MirrorsFrom heap image Eq fun depth =>
        Heap.constructWithin (engines depth) id (rounds depth) :=
    mirrorsFrom_ready alike (.of_found found eager) (.of_found foundImage eagerImage) fuel rounds
  cases congruent with
  | function _ => exact constructed rfl rfl
  | codeless codeless =>
    cases value
    case spent =>
      have spent := alikeCell.eq_new rfl rfl
      have spentImage := alikeCell.symm.eq_new rfl rfl
      rw [spent] at found
      rw [spentImage] at foundImage
      exact .of_on (Heap.on_constructWithin_spent found fuel)
        (fun depth => Heap.on_constructWithin_spent foundImage (rounds depth)) (.error _) alike
    case pending => cases codeless
    all_goals exact constructed rfl rfl
  | pending factories =>
    have pending := alikeCell.eq_new rfl rfl
    have pendingImage := alikeCell.symm.eq_new rfl rfl
    rw [pending] at found
    rw [pendingImage] at foundImage
    have entering := mirrors.mirrorsFrom_enterFactory factories alike found foundImage
    have unrolled : Eventually fun depth =>
        (Heap.constructWithin (engines depth) id (rounds depth)).on image =
          (Heap.enterFactory (engines depth) id >>= fun entered =>
            if entered then Heap.constructWithin (engines depth) id (rounds depth - 1)
            else pure ()).on image := by
      refine (unbounded 1).mono fun depth enough => ?_
      obtain ⟨rest, more⟩ : ∃ rest, rounds depth = rest + 1 :=
        ⟨rounds depth - 1, (Nat.sub_add_cancel enough).symm⟩
      rw [more]
      rfl
    apply MirrorsFrom.of_image unrolled
    cases fuel with
    | zero =>
      apply entering.bind
      rintro entered _ rfl
      cases entered with
      | true => exact .exhausted _
      | false => exact .pure rfl
    | succ less =>
      apply entering.bind
      rintro entered _ rfl
      cases entered with
      | true => exact onward less rfl _ unbounded.pred
      | false => exact .pure rfl

theorem mirrorsFrom_unwraps {value bare : Representation} (unwraps : value.Unwraps bare)
    {rounds : Nat → Nat} (unbounded : Unbounded rounds) (alike : heap.Alike image)
    (found : heap.cell? id = some cell) (foundImage : image.cell? id = some cellImage)
    (alikeCell : cell.Alike cellImage) (holds : cellImage.value = value)
    (congruent : cell.value.Congruent bare) :
    (Heap.constructWithin engine id fuel).MirrorsFrom heap image Eq fun depth =>
      Heap.constructWithin (engines depth) id (rounds depth) := by
  induction unwraps generalizing image cellImage rounds with
  | refl value =>
    rw [← holds] at congruent
    exact mirrors.mirrorsFrom_congruent onward unbounded alike found foundImage alikeCell congruent
  | @step factory built bare yields rest inductionHypothesis =>
    have pendingImage := foundImage
    rw [alikeCell.symm.eq_new holds rfl] at pendingImage
    have alikeBuilt : cell.Alike (.new built) :=
      alikeCell.new (congrArg Representation.isLazy holds)
        (.unwrapping (.refl _) rest congruent)
    have foundBuilt : (image.unwrapped id built).cell? id = some (.new built) := by
      rw [Heap.cell?_unwrapped pendingImage, if_pos rfl]
    apply MirrorsFrom.of_image (mirrors.on_constructWithin_unwrapped yields pendingImage unbounded)
    exact inductionHypothesis unbounded.pred (alike.unwrap pendingImage found alikeBuilt) foundBuilt
      alikeBuilt rfl congruent

theorem mirrors_constructWithin_of_onward {rounds : Nat → Nat} (unbounded : Unbounded rounds) :
    (Heap.constructWithin engine id fuel).Mirrors Eq fun depth =>
      Heap.constructWithin (engines depth) id (rounds depth) := by
  intro heap image alike
  rcases alike.cases id with ⟨absent, absentImage⟩ | ⟨cell, cellImage, found, foundImage, alikeCell⟩
  · have ready : ∀ {heap : Heap}, heap.cell? id = none → heap.Ready id := by
      intro heap absent cell found
      rw [absent] at found
      cases found
    exact mirrorsFrom_ready alike (ready absent) (ready absentImage) fuel rounds
  · have value := alikeCell.value
    generalize holds : cell.value = own at value
    cases value with
    | unwrapping left right congruent =>
      cases left with
      | refl =>
        rw [← holds] at congruent
        exact mirrors.mirrorsFrom_unwraps onward right unbounded alike found foundImage alikeCell
          rfl congruent
      | @step factory built _ yields rest =>
        have pending := found
        rw [alikeCell.eq_new holds rfl] at pending
        have alikeBuilt : cellImage.Alike (.new built) :=
          alikeCell.symm.new (congrArg Representation.isLazy holds)
            (Representation.Alike.unwrapping rest right congruent).symm
        have alikeAfter := (alike.symm.unwrap pending foundImage alikeBuilt).symm
        apply mirrors.mirrorsFrom_unwrapped yields pending
        intro less same
        exact onward less same rounds unbounded _ image alikeAfter

end Onward

theorem mirrors_constructWithin (id : ObjectId) (fuel : Nat) {rounds : Nat → Nat}
    (unbounded : Unbounded rounds) :
    (Heap.constructWithin engine id fuel).Mirrors Eq fun depth =>
      Heap.constructWithin (engines depth) id (rounds depth) := by
  induction fuel generalizing rounds with
  | zero =>
    refine mirrors.mirrors_constructWithin_of_onward ?_ unbounded
    intro less same
    cases same
  | succ less inductionHypothesis =>
    refine mirrors.mirrors_constructWithin_of_onward ?_ unbounded
    intro other same rounds unbounded
    cases same
    exact inductionHypothesis unbounded

theorem mirrors_construct (id : ObjectId) :
    (Heap.construct engine id).Mirrors Eq fun depth => Heap.construct (engines depth) id :=
  mirrors.mirrors_constructWithin id engine.depth mirrors.unbounded

section Opening

variable {α : Type} {results : α → α → Prop}

theorem mirrors_construct_bind {next : Action α} {nextImage : Nat → Action α}
    (mirrorsNext : ∀ {heap image}, heap.Alike image → heap.Constructed id → image.Constructed id →
      next.MirrorsFrom heap image results nextImage) :
    (Heap.construct engine id >>= fun _ => next).Mirrors results fun depth =>
      Heap.construct (engines depth) id >>= fun _ => nextImage depth := by
  intro heap image alike
  cases constructing : (Heap.construct engine id).on heap with
  | none =>
    intro outcome last ran
    rw [Action.on_bind, constructing] at ran
    cases ran
  | some ended =>
    obtain ⟨outcome, after⟩ := ended
    obtain ⟨_, afterImage, settles, corresponds, alikeAfter⟩ :=
      mirrors.mirrors_construct id heap image alike outcome after constructing
    cases corresponds with
    | error fault =>
      exact Action.Ensures.of_on (Action.on_bind_error constructing _)
        ⟨_, afterImage, settles.bind_error _, .error fault, alikeAfter⟩
    | ok _ =>
      have constructed := Heap.constructed_of_on_construct constructing
      obtain ⟨depth, beyond⟩ := settles
      have constructedImage :=
        Heap.constructed_of_on_construct (beyond depth (Nat.le_refl depth))
      intro last final ran
      rw [Action.on_bind_ok constructing] at ran
      obtain ⟨lastImage, finalImage, settlesNext, correspondsNext, alikeFinal⟩ :=
        mirrorsNext alikeAfter constructed constructedImage last final ran
      exact ⟨lastImage, finalImage, Action.Settles.bind_ok ⟨depth, beyond⟩ settlesNext,
        correspondsNext, alikeFinal⟩

/-- Once an object is constructed, its cells are alike and not lazy. -/
theorem mirrors_open {next : ObjectCell Representation → Action α}
    {nextImage : Nat → ObjectCell Representation → Action α}
    (mirrorsNext : ∀ {heap image cell cellImage}, heap.Alike image → heap.cell? id = some cell →
      image.cell? id = some cellImage → cell.Alike cellImage → cell.value.isLazy = false →
        cellImage.value.isLazy = false →
          (next cell).MirrorsFrom heap image results fun depth => nextImage depth cellImage) :
    (Heap.construct engine id >>= fun _ => Heap.cellOf id >>= next).Mirrors results fun depth =>
      Heap.construct (engines depth) id >>= fun _ => Heap.cellOf id >>= nextImage depth := by
  apply mirrors.mirrors_construct_bind
  intro heap image alike constructed constructedImage
  refine .bind_reading alike (Heap.on_cellOf heap id) (fun _ => Heap.on_cellOf image id)
    (alike.held id) ?_
  intro cell cellImage held heldImage alikeCell
  have found := Heap.cell?_of_held held
  have foundImage := Heap.cell?_of_held heldImage
  exact mirrorsNext alike found foundImage alikeCell (constructed.ready cell found)
    (constructedImage.ready cellImage foundImage)

end Opening

end Engine.Mirrors

end ObjectModel
