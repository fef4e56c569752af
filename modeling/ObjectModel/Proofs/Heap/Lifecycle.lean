import ObjectModel.Proofs.Heap.Guarded
import ObjectModel.Proofs.Heap.Lazy

/-!
# The life of a handle

A factory that is entered gives way to what it builds, or to nothing if it fails.  So each factory
under a handle is entered at most once, and a handle whose factory has been entered stays spent
until that factory succeeds, whatever other code does.
-/

namespace ObjectModel

def Event.enters (id : ObjectId) : Event → Bool
  | .factory other => other = id
  | _ => false

namespace Heap

def entries (heap : Heap) (id : ObjectId) : Nat := heap.log.countP (Event.enters id)

def slot? (heap : Heap) (id : ObjectId) : Option Representation :=
  (heap.cell? id).map ObjectCell.value

variable {heap after before : Heap} {id other : ObjectId} {cell : ObjectCell Representation}
  {factory : Code .representation} {event : Event} {representation : Representation}

theorem entries_record (enters : event.enters id = false) :
    (heap.record event).entries id = heap.entries id :=
  List.countP_cons_of_neg (by rw [enters]; decide)

theorem entries_entered (heap : Heap) (id other : ObjectId) :
    (heap.entered other).entries id = heap.entries id + if other = id then 1 else 0 := by
  have entering : (Event.factory other).enters id = decide (other = id) := rfl
  unfold entered entries record
  rw [List.countP_cons, entering]
  simp only [decide_eq_true_eq]
  rfl

/-- The policy stays, and so do handles that are spent, without an entry. -/
def Settling (before after : Heap) : Prop :=
  after.policy = before.policy ∧ ∀ id, before.cell? id = some (.new .spent) →
    after.cell? id = some (.new .spent) ∧ after.entries id = before.entries id

/-- The regime in which nobody holds lazy objects, and spent ones stay spent. -/
def steadying : Regime where
  safe := Steady
  leadsTo := Settling
  refl _ := ⟨rfl, fun _ spent => ⟨spent, rfl⟩⟩
  trans first second := by
    refine ⟨second.1.trans first.1, fun id spent => ?_⟩
    obtain ⟨spentBetween, entriesBetween⟩ := first.2 id spent
    obtain ⟨spentAfter, entriesAfter⟩ := second.2 id spentBetween
    exact ⟨spentAfter, entriesAfter.trans entriesBetween⟩

namespace Steady

theorem new (policy : Policy) : (Heap.new policy).Steady := by
  rintro ⟨_ | _ | _ | _ | index⟩ cell found _ <;> cases found <;> rfl

theorem setCell (steady : heap.Steady) (found : heap.cell? id = some cell)
    {next : ObjectCell Representation} (free : next.value.isLazy = true → next.borrow = .free) :
    (heap.setCell id next).Steady := by
  intro other stored foundAfter lazy
  rw [cell?_setCell found] at foundAfter
  split at foundAfter
  next =>
    cases foundAfter
    exact free lazy
  next => exact steady other stored foundAfter lazy

theorem push (steady : heap.Steady) (representation : Representation) :
    ({ heap with cells := heap.cells.push (.new representation) } : Heap).Steady := by
  intro other stored found lazy
  rw [cell?_push] at found
  split at found
  next =>
    cases found
    rfl
  next => exact steady other stored found lazy

theorem entered (steady : heap.Steady)
    (pending : heap.cell? id = some (.new (.pending factory))) : (heap.entered id).Steady :=
  steady.setCell pending fun _ => rfl

end Steady

namespace Settling

theorem setCell (found : heap.cell? id = some cell) (eager : cell.value.isLazy = false)
    (next : ObjectCell Representation) : heap.Settling (heap.setCell id next) := by
  refine ⟨rfl, fun other spent => ⟨?_, rfl⟩⟩
  rw [cell?_setCell found]
  split
  next here =>
    rw [here, found] at spent
    cases spent
    cases eager
  next => exact spent

theorem of_entered (pending : heap.cell? id = some (.new (.pending factory)))
    (settling : (heap.entered id).Settling after) : heap.Settling after := by
  refine ⟨settling.1, fun other spent => ?_⟩
  have apart : other ≠ id := by
    intro same
    rw [same, pending] at spent
    cases spent
  have spentBetween : (heap.entered id).cell? other = some (.new .spent) := by
    rw [cell?_entered pending, if_neg apart]
    exact spent
  obtain ⟨spentAfter, entries⟩ := settling.2 other spentBetween
  rw [entries_entered, if_neg (Ne.symm apart)] at entries
  exact ⟨spentAfter, entries⟩

theorem of_built (pending : heap.cell? id = some (.new (.pending factory)))
    (settling : (heap.entered id).Settling after) (spent : after.cell? id = some (.new .spent))
    (representation : Representation) :
    heap.Settling (after.setCell id (.new representation)) := by
  have settled := of_entered pending settling
  refine ⟨settled.1, fun other spentBefore => ?_⟩
  obtain ⟨spentAfter, entries⟩ := settled.2 other spentBefore
  refine ⟨?_, entries⟩
  rw [cell?_setCell spent, if_neg ?_]
  · exact spentAfter
  · rintro rfl
    rw [pending] at spentBefore
    cases spentBefore

end Settling

theorem bears_steadying : steadying.Bears where
  steady steady := steady
  spent settling _ spent := (settling.2 _ spent).1
  recorded steady event unentered := by
    refine ⟨steady, rfl, fun id spent => ⟨spent, entries_record ?_⟩⟩
    cases event
    case factory other => exact absurd rfl (unentered other)
    all_goals rfl
  hosted steady _ _ := ⟨steady, rfl, fun _ spent => ⟨spent, rfl⟩⟩
  allocated steady representation := by
    refine ⟨steady.push representation, rfl, fun id spent => ⟨?_, rfl⟩⟩
    rw [cell?_push, if_neg (Nat.ne_of_lt (Array.getElem?_eq_some_iff.mp spent).1)]
    exact spent
  changed := by
    intro heap steady id cell found eager next eagerNext
    refine ⟨steady.setCell found fun lazy => ?_, .setCell found eager next⟩
    rw [eagerNext] at lazy
    cases lazy
  entered steady _ _ pending := steady.entered pending
  failed _ _ _ pending _ _ _ _ reached := ⟨reached.1, reached.2.of_entered pending⟩
  built := by
    intro heap steady id factory pending depth representation after ran _ reached
    have spent : after.cell? id = some (.new .spent) := by
      refine (reached.2.2 id ?_).1
      rw [cell?_entered pending, if_pos rfl]
    exact ⟨reached.1.setCell spent fun _ => rfl, .of_built pending reached.2 spent representation⟩

theorem carries_steadying {depth : Nat}
    (follows : (Engine.within depth).Follows (.within depth) .free steadying) {reply : Reply}
    (command : Command reply) :
    steadying.Carries (command.execute (.within depth)) (command.execute (.within depth)) := by
  apply bears_steadying.carries_execute follows command
  intro id representation _ heap steady cell found eager
  exact ⟨steady.setCell found fun _ => rfl, .setCell found eager _⟩

theorem respects_within_steadying (depth : Nat) :
    (Engine.within depth).Respects .free steadying :=
  Regime.respects_within (fun {_} follows {_} command _ => carries_steadying follows command) depth

theorem keeps_run_steadying (depth : Nat) {goal : Goal} (code : Code goal) :
    steadying.Keeps (code.run depth) :=
  Regime.keeps_run (fun {_} follows {_} command _ => carries_steadying follows command) depth
    code.obeys_free

/-- The life of what is under a handle, and the factories that are entered in its course, the first
one first.  A factory that is pending there may be entered; then it is gone, and what it builds
takes its place, if it does not fail.  Only what is not lazy may be replaced, and if so by
anything. -/
inductive Life (id : ObjectId) (replaces : Bool) :
    Option Representation → List (Code .representation) → Option Representation → Prop
  | still (representation : Option Representation) :
      Life id replaces representation [] representation
  | eager {old new : Representation} (wasEager : old.isLazy = false)
      (isEager : new.isLazy = false) : Life id replaces (some old) [] (some new)
  | replaced {old new : Representation} {entered : List (Code .representation)}
      {last : Option Representation} (allowed : replaces = true) (wasEager : old.isLazy = false)
      (rest : Life id replaces (some new) entered last) : Life id replaces (some old) entered last
  | allocated {new : Representation} {entered : List (Code .representation)}
      {last : Option Representation} (rest : Life id replaces (some new) entered last) :
      Life id replaces none entered last
  | failed {factory : Code .representation} {depth : Nat} {heap after : Heap} {fault : Fault}
      (pending : heap.cell? id = some (.new (.pending factory)))
      (ran : ((Engine.within depth).run factory).on (heap.entered id) =
        some (.error fault, after)) :
      Life id replaces (some (.pending factory)) [factory] (some .spent)
  | built {factory : Code .representation} {depth : Nat} {heap after : Heap}
      {new : Representation} {entered : List (Code .representation)} {last : Option Representation}
      (pending : heap.cell? id = some (.new (.pending factory)))
      (ran : ((Engine.within depth).run factory).on (heap.entered id) = some (.ok new, after))
      (rest : Life id replaces (some new) entered last) :
      Life id replaces (some (.pending factory)) (factory :: entered) last

namespace Life

variable {replaces : Bool} {first second third : Option Representation}
  {entered later : List (Code .representation)}

theorem of_spent (life : Life id replaces (some .spent) entered second) :
    entered = [] ∧ second = some .spent := by
  cases life with
  | still => exact ⟨rfl, rfl⟩
  | eager wasEager => cases wasEager
  | replaced _ wasEager => cases wasEager

theorem of_eager {old new : Representation} (wasEager : old.isLazy = false)
    (isEager : new.isLazy = false) (life : Life id replaces (some new) entered second) :
    Life id replaces (some old) entered second := by
  cases life with
  | still => exact .eager wasEager isEager
  | eager _ stillEager => exact .eager wasEager stillEager
  | replaced allowed _ rest => exact .replaced allowed wasEager rest
  | failed => cases isEager
  | built => cases isEager

theorem trans (before : Life id replaces first entered second)
    (after : Life id replaces second later third) :
    Life id replaces first (entered ++ later) third := by
  induction before with
  | still => exact after
  | eager wasEager isEager => exact of_eager wasEager isEager after
  | replaced allowed wasEager _ inductionHypothesis =>
    exact .replaced allowed wasEager (inductionHypothesis after)
  | allocated _ inductionHypothesis => exact .allocated (inductionHypothesis after)
  | failed pending ran =>
    obtain ⟨rfl, rfl⟩ := after.of_spent
    exact .failed pending ran
  | built pending ran _ inductionHypothesis => exact .built pending ran (inductionHypothesis after)

end Life

/-- What is under a handle lives on, with as many entries as there are factories entered. -/
def Lives (id : ObjectId) (replaces : Bool) (before after : Heap) : Prop :=
  ∃ entered, Life id replaces (before.slot? id) entered (after.slot? id) ∧
    after.entries id = before.entries id + entered.length

def living (id : ObjectId) (replaces : Bool) : Regime where
  safe := Steady
  leadsTo before after := before.Settling after ∧ Lives id replaces before after
  refl heap := ⟨steadying.refl heap, [], .still _, rfl⟩
  trans first second := by
    obtain ⟨settling, entered, life, entries⟩ := first
    obtain ⟨settlingLater, later, lifeLater, entriesLater⟩ := second
    refine ⟨steadying.trans settling settlingLater, entered ++ later, life.trans lifeLater, ?_⟩
    rw [entriesLater, entries, List.length_append, Nat.add_assoc]

namespace Lives

variable {replaces : Bool}

theorem of_same (slot : after.slot? id = before.slot? id)
    (entries : after.entries id = before.entries id) : Lives id replaces before after := by
  refine ⟨[], ?_, entries⟩
  rw [slot]
  exact .still _

theorem slot?_setCell (found : heap.cell? other = some cell) (next : ObjectCell Representation)
    (id : ObjectId) :
    (heap.setCell other next).slot? id = if id = other then some next.value else heap.slot? id := by
  unfold slot?
  rw [cell?_setCell found]
  split <;> rfl

theorem slot?_of_found (found : heap.cell? id = some cell) : heap.slot? id = some cell.value := by
  unfold slot?
  rw [found]
  rfl

theorem of_entered (pending : heap.cell? other = some (.new (.pending factory)))
    (apart : id ≠ other) (lives : Lives id replaces (heap.entered other) after) :
    Lives id replaces heap after := by
  obtain ⟨entered, life, entries⟩ := lives
  have slot : (heap.entered other).slot? id = heap.slot? id :=
    (slot?_setCell pending (.new .spent) id).trans (if_neg apart)
  rw [slot] at life
  rw [entries_entered, if_neg (Ne.symm apart)] at entries
  exact ⟨entered, life, entries⟩

theorem of_changed (found : heap.cell? other = some cell) (eager : cell.value.isLazy = false)
    {next : ObjectCell Representation}
    (kept : id = other → next.value.isLazy = false ∨ replaces = true) :
    Lives id replaces heap (heap.setCell other next) := by
  by_cases here : id = other
  · refine ⟨[], ?_, rfl⟩
    rw [slot?_setCell found, if_pos here, here, slot?_of_found found]
    rcases kept here with eagerNext | allowed
    · exact .eager eager eagerNext
    · exact .replaced allowed eager (.still _)
  · refine .of_same ?_ rfl
    rw [slot?_setCell found, if_neg here]

end Lives

theorem bears_living (id : ObjectId) (replaces : Bool) : (living id replaces).Bears where
  steady steady := steady
  spent settling _ spent := (settling.1.2 _ spent).1
  recorded := by
    intro heap steady event unentered
    have recorded := bears_steadying.recorded steady event unentered
    refine ⟨recorded.1, recorded.2, .of_same rfl (entries_record ?_)⟩
    cases event
    case factory other => exact absurd rfl (unentered other)
    all_goals rfl
  hosted steady collections names := by
    have hosted := bears_steadying.hosted steady collections names
    exact ⟨hosted.1, hosted.2, .of_same rfl rfl⟩
  allocated := by
    intro heap steady representation
    have allocated := bears_steadying.allocated steady representation
    refine ⟨allocated.1, allocated.2, ?_⟩
    by_cases new : id.index = heap.cells.size
    · have absent : heap.slot? id = none := by
        unfold slot? cell?
        rw [new, Array.getElem?_eq_none (Nat.le_refl _)]
        rfl
      refine ⟨[], ?_, rfl⟩
      unfold slot? at absent ⊢
      rw [absent, cell?_push, if_pos new]
      exact .allocated (.still _)
    · refine .of_same ?_ rfl
      unfold slot?
      rw [cell?_push, if_neg new]
  changed := by
    intro heap steady other cell found eager next eagerNext
    have changed := bears_steadying.changed steady found eager eagerNext
    exact ⟨changed.1, changed.2, .of_changed found eager fun _ => .inl eagerNext⟩
  entered steady _ _ pending := steady.entered pending
  failed := by
    intro heap steady other factory pending depth fault after ran reached
    have failed := bears_steadying.failed steady pending ran ⟨reached.1, reached.2.1⟩
    refine ⟨failed.1, failed.2, ?_⟩
    by_cases here : id = other
    · subst here
      have spent : (heap.entered id).cell? id = some (.new .spent) := by
        rw [cell?_entered pending, if_pos rfl]
      obtain ⟨spentAfter, entries⟩ := reached.2.1.2 id spent
      rw [entries_entered, if_pos rfl] at entries
      refine ⟨[factory], ?_, entries⟩
      rw [Lives.slot?_of_found pending, Lives.slot?_of_found spentAfter]
      exact .failed pending ran
    · exact reached.2.2.of_entered pending here
  built := by
    intro heap steady other factory pending depth representation after ran obeys reached
    have built := bears_steadying.built steady pending ran obeys ⟨reached.1, reached.2.1⟩
    refine ⟨built.1, built.2, ?_⟩
    have spent : (heap.entered other).cell? other = some (.new .spent) := by
      rw [cell?_entered pending, if_pos rfl]
    obtain ⟨spentAfter, entries⟩ := reached.2.1.2 other spent
    -- What happened to the handle itself while its factory ran does not count: it was spent.
    by_cases here : id = other
    · subst here
      rw [entries_entered, if_pos rfl] at entries
      refine ⟨[factory], ?_, entries⟩
      rw [Lives.slot?_of_found pending, Lives.slot?_setCell spentAfter, if_pos rfl]
      exact .built pending ran (.still _)
    · obtain ⟨entered, life, entriesAfter⟩ := reached.2.2.of_entered pending here
      refine ⟨entered, ?_, entriesAfter⟩
      rw [Lives.slot?_setCell spentAfter, if_neg here]
      exact life

end Heap

/-- Whether a command spares a handle: it does not put another lazy object under it. -/
def Command.spares (id : ObjectId) (_ : Heap) : {reply : Reply} → Command reply → Bool
  | _, .replace target representation => !(target = id && representation.isLazy)
  | _, _ => true

namespace Heap

theorem reaches_replaced {id other : ObjectId} {replaces : Bool} {heap : Heap}
    (steady : heap.Steady) {cell : ObjectCell Representation} (found : heap.cell? other = some cell)
    (eager : cell.value.isLazy = false) {representation : Representation}
    (kept : id = other → representation.isLazy = false ∨ replaces = true) :
    (living id replaces).Reaches heap (heap.setCell other (.new representation)) :=
  ⟨steady.setCell found fun _ => rfl, .setCell found eager _, .of_changed found eager kept⟩

/-- Whatever a command does, the life of a handle goes on. -/
theorem carries_living {id : ObjectId} {depth : Nat}
    (follows : (Engine.within depth).Follows (.within depth) .free (living id true)) {reply : Reply}
    (command : Command reply) :
    (living id true).Carries (command.execute (.within depth))
      (command.execute (.within depth)) := by
  apply (bears_living id true).carries_execute follows command
  intro other representation _ heap steady cell found eager
  exact reaches_replaced steady found eager fun _ => .inr rfl

/-- As long as a handle is spared, nothing is replaced under it. -/
theorem carries_sparing {id : ObjectId} {watched : Engine} {depth : Nat}
    (follows : watched.Follows (.within depth) .free (living id false)) {reply : Reply}
    (command : Command reply) (heap : Heap) (steady : heap.Steady)
    (spares : command.spares id heap = true) :
    (living id false).CarriesFrom heap (command.execute watched)
      (command.execute (.within depth)) := by
  refine (bears_living id false).carries_execute follows command ?_ heap steady
  intro other representation replaces heap steady cell found eager
  refine reaches_replaced steady found eager ?_
  rintro rfl
  cases command
  case replace target replacement =>
    obtain ⟨rfl, rfl⟩ : target = id ∧ replacement = representation := replaces
    have spared : (!(decide (target = target) && replacement.isLazy)) = true := spares
    exact .inl (by simpa using spared)
  all_goals cases replaces

end Heap

end ObjectModel
