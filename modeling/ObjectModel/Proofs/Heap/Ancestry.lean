import ObjectModel.Proofs.Heap.Eager
import ObjectModel.Proofs.Heap.Store
import ObjectModel.Proofs.Object.Mutation

/-!
# Prototype chains that end

A handle has an ancestry if the prototype links from it lead to an object without prototype.  Then
no handle occurs in it twice, so it is no longer than the heap.  If all handles have one, a link to
a handle whose ancestry does not lead back may be set, and no ancestry is lost.
-/

namespace ObjectModel

namespace Representation

def link : Representation → Option ObjectId
  | .ordinary inner => inner.prototype
  | .array inner => inner.base.prototype
  | .string inner => inner.base.prototype
  | .host view => view.base.prototype
  | .function _ _ base => base.prototype
  | .pending _ | .spent => none

/-- Whether a representation stands for an object in a heap with a number of collections. -/
def stands (collections : Nat) : Representation → Bool
  | .host view => view.source.index < collections
  | .pending _ | .spent => false
  | .ordinary _ | .array _ | .string _ | .function .. => true

end Representation

namespace Heap

variable {heap after : Heap} {id : ObjectId} {cell : ObjectCell Representation}
  {object next : Object} {cursor link : Option ObjectId} {path : List ObjectId}

def link? (heap : Heap) (id : ObjectId) : Option (Option ObjectId) :=
  (heap.cell? id).map fun cell => cell.value.link

/-- The handles that prototype links lead to from a handle, if there is one to begin with, up to an
object without prototype. -/
inductive Ancestry (heap : Heap) : Option ObjectId → List ObjectId → Prop
  | ends : Ancestry heap none []
  | link {id : ObjectId} {link : Option ObjectId} {path : List ObjectId}
      (linked : heap.link? id = some link) (rest : Ancestry heap link path) :
      Ancestry heap (some id) (id :: path)

theorem lt_size_of_link? (linked : heap.link? id = some link) : id.index < heap.size := by
  obtain ⟨cell, found, _⟩ := Option.map_eq_some_iff.mp linked
  exact (Array.getElem?_eq_some_iff.mp found).1

namespace Ancestry

theorem unique {other : List ObjectId} (ancestry : heap.Ancestry cursor path)
    (another : heap.Ancestry cursor other) : other = path := by
  induction ancestry generalizing other with
  | ends =>
    cases another
    rfl
  | link linked rest inductionHypothesis =>
    cases another with
    | link linkedToo restToo =>
      rw [linked] at linkedToo
      cases linkedToo
      rw [inductionHypothesis restToo]

theorem exists_of_mem (ancestry : heap.Ancestry cursor path) (member : id ∈ path) :
    ∃ own, heap.Ancestry (some id) own ∧ own.length ≤ path.length := by
  induction ancestry with
  | ends => cases member
  | link linked rest inductionHypothesis =>
    rcases List.mem_cons.mp member with rfl | later
    · exact ⟨_, .link linked rest, Nat.le_refl _⟩
    · obtain ⟨own, ancestryOwn, shorter⟩ := inductionHypothesis later
      exact ⟨own, ancestryOwn, Nat.le_succ_of_le shorter⟩

/-- The links from a handle do not lead back to it: it would have a shorter ancestry. -/
theorem not_mem (ancestry : heap.Ancestry (some id) (id :: path)) : id ∉ path := by
  intro member
  cases ancestry with
  | link linked rest =>
    obtain ⟨own, ancestryOwn, shorter⟩ := rest.exists_of_mem member
    have same := (Ancestry.link linked rest).unique ancestryOwn
    rw [same, List.length_cons] at shorter
    exact Nat.not_succ_le_self _ shorter

theorem nodup (ancestry : heap.Ancestry cursor path) : path.Nodup := by
  induction ancestry with
  | ends => exact List.nodup_nil
  | link linked rest inductionHypothesis =>
    exact List.nodup_cons.mpr ⟨(Ancestry.link linked rest).not_mem, inductionHypothesis⟩

theorem lt_size (ancestry : heap.Ancestry cursor path) (member : id ∈ path) :
    id.index < heap.size := by
  obtain ⟨_, own, _⟩ := ancestry.exists_of_mem member
  cases own with
  | link linked rest => exact lt_size_of_link? linked

theorem length_le (ancestry : heap.Ancestry cursor path) : path.length ≤ heap.size :=
  length_le_size ancestry.nodup fun _ member => ancestry.lt_size member

theorem congr (ancestry : heap.Ancestry cursor path)
    (same : ∀ id ∈ path, after.link? id = heap.link? id) : after.Ancestry cursor path := by
  induction ancestry with
  | ends => exact .ends
  | link linked rest inductionHypothesis =>
    refine .link ((same _ List.mem_cons_self).trans linked) (inductionHypothesis ?_)
    intro id member
    exact same id (List.mem_cons_of_mem _ member)

/-- If one link is replaced by a link to a handle whose ancestry does not lead back, whatever had an
ancestry has one. -/
theorem relink {newPath : List ObjectId} (newAncestry : heap.Ancestry link newPath)
    (apart : id ∉ newPath) (linked : after.link? id = some link)
    (others : ∀ other, other ≠ id → after.link? other = heap.link? other)
    (ancestry : heap.Ancestry cursor path) : ∃ path, after.Ancestry cursor path := by
  have ancestryId : after.Ancestry (some id) (id :: newPath) := by
    refine .link linked (newAncestry.congr ?_)
    intro other member
    apply others
    intro same
    rw [same] at member
    exact apart member
  induction ancestry with
  | ends => exact ⟨[], .ends⟩
  | @link first _ _ found rest inductionHypothesis =>
    by_cases here : first = id
    · rw [here]
      exact ⟨_, ancestryId⟩
    · obtain ⟨path, restAfter⟩ := inductionHypothesis
      exact ⟨_, .link ((others first here).trans found) restAfter⟩

end Ancestry

/-- Whether nobody holds a cell and every cell stands for an object. -/
structure Plain (heap : Heap) : Prop where
  free : ∀ {id cell}, heap.cell? id = some cell → cell.borrow = .free
  stands : ∀ {id cell}, heap.cell? id = some cell →
    cell.value.stands heap.collections.size = true

theorem exists_view?_of_stands {representation : Representation}
    (stands : representation.stands heap.collections.size = true) :
    ∃ object, heap.view? representation = some object := by
  cases representation
  case host view =>
    have inside : view.source.index < heap.collections.size := of_decide_eq_true stands
    have shared : heap.collection? view.source = some heap.collections[view.source.index] :=
      Array.getElem?_eq_getElem inside
    simp only [view?, shared, Option.map_some]
    exact ⟨_, rfl⟩
  case pending => cases stands
  case spent => cases stands
  all_goals exact ⟨_, rfl⟩

theorem prototype_of_view? {representation : Representation}
    (viewed : heap.view? representation = some object) :
    object.prototype = representation.link := by
  cases representation
  case host view =>
    obtain ⟨collection, _, rfl⟩ := Option.map_eq_some_iff.mp viewed
    cases collection <;> rfl
  case pending => cases viewed
  case spent => cases viewed
  all_goals
    cases viewed
    rfl

namespace Plain

theorem examine_eq (plain : heap.Plain) (found : heap.cell? id = some cell)
    (viewed : heap.view? cell.value = some object) : heap.examine id = .ok object := by
  have grasped := grasp_eq found viewed
  rw [plain.free found] at grasped
  exact (of_grasp grasped).2.2

theorem eager (plain : heap.Plain) : heap.Eager := by
  intro id cell found
  have stands := plain.stands found
  cases lazy : cell.value with
  | pending factory =>
    rw [lazy] at stands
    cases stands
  | spent =>
    rw [lazy] at stands
    cases stands
  | _ => rfl

theorem examine_link (plain : heap.Plain) (linked : heap.link? id = some link) :
    (heap.examine id).map Object.prototype = .ok link := by
  obtain ⟨cell, found, rfl⟩ := Option.map_eq_some_iff.mp linked
  obtain ⟨object, viewed⟩ := exists_view?_of_stands (plain.stands found)
  rw [plain.examine_eq found viewed, ← prototype_of_view? viewed]
  rfl

/-- The search for a cycle decides whether a handle is in an ancestry, if it is deep enough. -/
theorem linksTo_eq (plain : heap.Plain) (ancestry : heap.Ancestry cursor path) {depth : Nat}
    (fits : path.length ≤ depth) : heap.linksTo id depth cursor = .ok (decide (id ∈ path)) := by
  induction ancestry generalizing depth with
  | ends => cases depth <;> rfl
  | @link first link path linked rest inductionHypothesis =>
    cases depth with
    | zero => cases fits
    | succ depth =>
      have onward := inductionHypothesis (Nat.le_of_succ_le_succ fits)
      unfold linksTo
      split
      next here => rw [decide_eq_true (List.mem_cons.mpr (.inl here.symm))]
      next elsewhere =>
        have same : id ∈ first :: path ↔ id ∈ path := by
          rw [List.mem_cons, or_iff_right (fun here => elsewhere here.symm)]
        rw [plain.examine_link linked, decide_eq_decide.mpr same]
        exact onward

theorem not_mem_of_linksTo (plain : heap.Plain) (ancestry : heap.Ancestry cursor path) {depth : Nat}
    (searched : heap.linksTo id depth cursor = .ok false) : id ∉ path := by
  induction ancestry generalizing depth with
  | ends => exact List.not_mem_nil
  | @link first link path linked rest inductionHypothesis =>
    cases depth with
    | zero =>
      unfold linksTo at searched
      split at searched <;> cases searched
    | succ depth =>
      unfold linksTo at searched
      split at searched
      next => cases searched
      next elsewhere =>
        rw [plain.examine_link linked] at searched
        rw [List.mem_cons, not_or]
        exact ⟨fun here => elsewhere here.symm, inductionHypothesis searched⟩

end Plain

end Heap

end ObjectModel
