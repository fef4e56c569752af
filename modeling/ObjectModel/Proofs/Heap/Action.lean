import ObjectModel.Heap.State

/-!
# Running actions

What an action does on a given heap: how each way of composing actions runs, what an action ensures
of its outcome, what it keeps of every heap it runs on, and when another action does the same.
-/

namespace ObjectModel

namespace Action

variable {α β : Type} {heap : Heap}

/-- The outcome of an action on a heap and the heap after it; nothing if the action does not end. -/
def on (action : Action α) (heap : Heap) : Option (Except Fault α × Heap) := action.run.run heap

theorem ext {action other : Action α} (alike : ∀ heap, action.on heap = other.on heap) :
    action = other :=
  funext alike

@[simp]
theorem on_pure (result : α) (heap : Heap) :
    (pure result : Action α).on heap = some (.ok result, heap) := rfl

@[simp]
theorem on_throw (fault : Fault) (heap : Heap) :
    (throw fault : Action α).on heap = some (.error fault, heap) := rfl

@[simp]
theorem on_ofExcept (outcome : Except Fault α) (heap : Heap) :
    (ofExcept outcome).on heap = some (outcome, heap) := rfl

@[simp]
theorem on_failWith (why : HeapFault) (heap : Heap) :
    (failWith why : Action α).on heap = some (.error (.internal why), heap) := rfl

@[simp]
theorem on_exhausted (heap : Heap) : (exhausted : Action α).on heap = none := rfl

@[simp]
theorem on_get (heap : Heap) : (MonadState.get : Action Heap).on heap = some (.ok heap, heap) := rfl

@[simp]
theorem on_set (next heap : Heap) : (set next : Action PUnit).on heap = some (.ok ⟨⟩, next) := rfl

@[simp]
theorem on_modify (change : Heap → Heap) (heap : Heap) :
    (modify change : Action PUnit).on heap = some (.ok ⟨⟩, change heap) := rfl

theorem on_bind (action : Action α) (next : α → Action β) (heap : Heap) :
    (action >>= next).on heap =
      match action.on heap with
      | some (.ok result, after) => (next result).on after
      | some (.error fault, after) => some (.error fault, after)
      | none => none := by
  change Option.bind (action.on heap) _ = _
  rcases action.on heap with _ | ⟨_ | result, after⟩ <;> rfl

theorem on_bind_ok {action : Action α} {result : α} {after : Heap}
    (ran : action.on heap = some (.ok result, after)) (next : α → Action β) :
    (action >>= next).on heap = (next result).on after := by
  rw [on_bind, ran]

theorem on_bind_error {action : Action α} {fault : Fault} {after : Heap}
    (ran : action.on heap = some (.error fault, after)) (next : α → Action β) :
    (action >>= next).on heap = some (.error fault, after) := by
  rw [on_bind, ran]

theorem exists_of_on_bind_ok {action : Action α} {next : α → Action β} {result : β} {after : Heap}
    (ran : (action >>= next).on heap = some (.ok result, after)) :
    ∃ value mid, action.on heap = some (.ok value, mid) ∧
      (next value).on mid = some (.ok result, after) := by
  rw [on_bind] at ran
  rcases first : action.on heap with _ | ⟨_ | value, mid⟩
  case some.ok =>
    rw [first] at ran
    exact ⟨value, mid, rfl, ran⟩
  all_goals
    rw [first] at ran
    cases ran

/-- Actions that only read can be carried out one after another on the same heap. -/
theorem on_bind_reading {action : Action α} {outcome : Except Fault α} {next : α → Action β}
    {outcomeOf : α → Except Fault β} (ran : action.on heap = some (outcome, heap))
    (ranNext : ∀ result, outcome = .ok result →
      (next result).on heap = some (outcomeOf result, heap)) :
    (action >>= next).on heap = some (outcome.bind outcomeOf, heap) := by
  cases outcome with
  | error fault => exact on_bind_error ran next
  | ok result =>
    rw [on_bind_ok ran]
    exact ranNext result rfl

theorem on_discard (action : Action α) (heap : Heap) :
    (discard action).on heap =
      (action.on heap).map fun ended => (ended.1.map fun _ => ⟨⟩, ended.2) := by
  change Option.bind (action.on heap) _ = _
  rcases action.on heap with _ | ⟨_ | result, after⟩ <;> rfl

theorem on_attempt (action : Action α) (heap : Heap) :
    (attempt action).on heap = (action.on heap).map fun ended => (.ok ended.1, ended.2) := by
  change Option.bind (action.on heap) _ = _
  rcases action.on heap with _ | ⟨outcome, after⟩ <;> rfl

/-- However an action ends on a heap, it ends like this. -/
def Ensures (action : Action α) (heap : Heap) (post : Except Fault α → Heap → Prop) : Prop :=
  ∀ outcome after, action.on heap = some (outcome, after) → post outcome after

namespace Ensures

variable {action : Action α} {post : Except Fault α → Heap → Prop}

theorem of_on {outcome : Except Fault α} {after : Heap}
    (ran : action.on heap = some (outcome, after)) (holds : post outcome after) :
    action.Ensures heap post := by
  intro other final ranOther
  rw [ran] at ranOther
  cases ranOther
  exact holds

theorem mono (ensures : action.Ensures heap post) {weaker : Except Fault α → Heap → Prop}
    (weaken : ∀ outcome after, post outcome after → weaker outcome after) :
    action.Ensures heap weaker := by
  intro outcome after ran
  exact weaken outcome after (ensures outcome after ran)

theorem bind {next : α → Action β} {final : Except Fault β → Heap → Prop}
    (ensures : action.Ensures heap post)
    (onResult : ∀ result after, post (.ok result) after → (next result).Ensures after final)
    (onFault : ∀ fault after, post (.error fault) after → final (.error fault) after) :
    (action >>= next).Ensures heap final := by
  intro outcome last ran
  rw [on_bind] at ran
  cases first : action.on heap with
  | none =>
    rw [first] at ran
    cases ran
  | some ended =>
    obtain ⟨result, after⟩ := ended
    rw [first] at ran
    cases result with
    | error fault =>
      cases ran
      exact onFault fault last (ensures _ _ first)
    | ok result => exact onResult result after (ensures _ _ first) outcome last ran

/-- What the last action ensures does not depend on the actions before. -/
theorem bind_last {next : α → Action β} {final : Except Fault β → Heap → Prop}
    (onResult : ∀ result after, (next result).Ensures after final)
    (onFault : ∀ fault after, final (.error fault) after) :
    (action >>= next).Ensures heap final := by
  have ended : action.Ensures heap fun _ _ => True := fun _ _ _ => trivial
  exact ended.bind (fun result after _ => onResult result after) fun fault after _ =>
    onFault fault after

theorem bind_reading {outcome : Except Fault α} {next : α → Action β}
    {final : Except Fault β → Heap → Prop} (ran : action.on heap = some (outcome, heap))
    (onResult : ∀ result, outcome = .ok result → (next result).Ensures heap final)
    (onFault : ∀ fault, outcome = .error fault → final (.error fault) heap) :
    (action >>= next).Ensures heap final := by
  cases outcome with
  | error fault => exact of_on (on_bind_error ran next) (onFault fault rfl)
  | ok result =>
    intro last after ranBoth
    rw [on_bind_ok ran] at ranBoth
    exact onResult result rfl last after ranBoth

end Ensures

end Action

/-- What actions have to keep: a property of heaps, and a relation of each heap to later ones. -/
structure Regime where
  safe : Heap → Prop
  leadsTo : Heap → Heap → Prop
  refl : ∀ heap, leadsTo heap heap
  trans : ∀ {first second third}, leadsTo first second → leadsTo second third →
    leadsTo first third

namespace Regime

variable {α β : Type} {regime : Regime}

def Reaches (regime : Regime) (before after : Heap) : Prop :=
  regime.safe after ∧ regime.leadsTo before after

/-- Whether an action is within a regime: from a safe heap it leads to safe heaps only, to which the
first one is related. -/
def Keeps (regime : Regime) (action : Action α) : Prop :=
  ∀ heap, regime.safe heap → action.Ensures heap fun _ => regime.Reaches heap

/-- Whether on a heap an action is within a regime and stands in for another one: however it ends,
the other one ends the same way. -/
def CarriesFrom (regime : Regime) (heap : Heap) (watched plain : Action α) : Prop :=
  watched.Ensures heap fun outcome after =>
    plain.on heap = some (outcome, after) ∧ regime.Reaches heap after

/-- Whether an action is within a regime and, on safe heaps, stands in for another one. -/
def Carries (regime : Regime) (watched plain : Action α) : Prop :=
  ∀ heap, regime.safe heap → regime.CarriesFrom heap watched plain

theorem Reaches.refl {heap : Heap} (safe : regime.safe heap) : regime.Reaches heap heap :=
  ⟨safe, regime.refl heap⟩

theorem Reaches.trans {first second third : Heap} (before : regime.Reaches first second)
    (after : regime.Reaches second third) : regime.Reaches first third :=
  ⟨after.1, regime.trans before.2 after.2⟩

namespace CarriesFrom

variable {heap : Heap}

theorem of_on {watched plain : Action α} {outcome : Except Fault α} {after : Heap}
    (ran : watched.on heap = some (outcome, after)) (ranPlain : plain.on heap = watched.on heap)
    (reaches : regime.Reaches heap after) : regime.CarriesFrom heap watched plain :=
  Action.Ensures.of_on ran ⟨ranPlain.trans ran, reaches⟩

theorem bind_reached {watched plain : Action α} {next nextPlain : α → Action β}
    (carries : regime.CarriesFrom heap watched plain)
    (carriesNext : ∀ result after, regime.Reaches heap after →
      regime.CarriesFrom after (next result) (nextPlain result)) :
    regime.CarriesFrom heap (watched >>= next) (plain >>= nextPlain) := by
  refine Action.Ensures.bind carries ?_ ?_
  · intro result after first
    obtain ⟨ran, reached⟩ := first
    refine (carriesNext result after reached).mono ?_
    intro outcome final last
    obtain ⟨ranNext, reachedNext⟩ := last
    rw [Action.on_bind_ok ran]
    exact ⟨ranNext, reached.trans reachedNext⟩
  · intro fault after first
    exact ⟨Action.on_bind_error first.1 nextPlain, first.2⟩

theorem bind {watched plain : Action α} {next nextPlain : α → Action β}
    (carries : regime.CarriesFrom heap watched plain)
    (carriesNext : ∀ result, regime.Carries (next result) (nextPlain result)) :
    regime.CarriesFrom heap (watched >>= next) (plain >>= nextPlain) :=
  carries.bind_reached fun result after reached => carriesNext result after reached.1

theorem bind_reading {watched plain : Action α} {next nextPlain : α → Action β}
    {outcome : Except Fault α} (safe : regime.safe heap)
    (ran : watched.on heap = some (outcome, heap)) (ranPlain : plain.on heap = some (outcome, heap))
    (carriesNext : ∀ result, outcome = .ok result →
      regime.CarriesFrom heap (next result) (nextPlain result)) :
    regime.CarriesFrom heap (watched >>= next) (plain >>= nextPlain) := by
  refine Action.Ensures.bind_reading ran ?_ ?_
  · intro result done
    rw [done] at ranPlain
    rw [Action.on_bind_ok ranPlain]
    exact carriesNext result done
  · intro fault failed
    rw [failed] at ranPlain
    exact ⟨Action.on_bind_error ranPlain nextPlain, .refl safe⟩

end CarriesFrom

namespace Carries

variable {watched plain : Action α}

theorem keeps (carries : regime.Carries watched plain) : regime.Keeps watched :=
  fun heap safe => (carries heap safe).mono fun _ _ => And.right

theorem bind {next nextPlain : α → Action β} (carries : regime.Carries watched plain)
    (carriesNext : ∀ result, regime.Carries (next result) (nextPlain result)) :
    regime.Carries (watched >>= next) (plain >>= nextPlain) :=
  fun heap safe => (carries heap safe).bind carriesNext

theorem bind_option {watched plain : Action (Option α)} {next nextPlain : Option α → Action β}
    (carries : regime.Carries watched plain)
    (carriesSome : ∀ result, regime.Carries (next (some result)) (nextPlain (some result)))
    (carriesNone : regime.Carries (next none) (nextPlain none)) :
    regime.Carries (watched >>= next) (plain >>= nextPlain) := by
  apply carries.bind
  intro result
  cases result with
  | none => exact carriesNone
  | some result => exact carriesSome result

theorem attempt (carries : regime.Carries watched plain) :
    regime.Carries (Action.attempt watched) (Action.attempt plain) := by
  intro heap safe outcome after ran
  rw [Action.on_attempt] at ran ⊢
  obtain ⟨⟨ended, final⟩, first, same⟩ := Option.map_eq_some_iff.mp ran
  cases same
  obtain ⟨ranPlain, reached⟩ := carries heap safe ended final first
  rw [ranPlain]
  exact ⟨rfl, reached⟩

end Carries

section Along

variable {holds : Heap → Prop} {heap : Heap} {watched plain : Action α}

def along (regime : Regime) (holds : Heap → Prop) : Regime where
  safe heap := regime.safe heap ∧ holds heap
  leadsTo := regime.leadsTo
  refl := regime.refl
  trans := regime.trans

theorem CarriesFrom.along (lasts : ∀ {before after}, regime.leadsTo before after → holds before →
    holds after) (holding : holds heap) (carries : regime.CarriesFrom heap watched plain) :
    (regime.along holds).CarriesFrom heap watched plain :=
  carries.mono fun _ _ ended => ⟨ended.1, ⟨ended.2.1, lasts ended.2.2 holding⟩, ended.2.2⟩

theorem CarriesFrom.of_along (carries : (regime.along holds).CarriesFrom heap watched plain) :
    regime.CarriesFrom heap watched plain :=
  carries.mono fun _ _ ended => ⟨ended.1, ended.2.1.1, ended.2.2⟩

/-- What is within a regime is within it along with all that lasts in it. -/
theorem Carries.along (lasts : ∀ {before after}, regime.leadsTo before after → holds before →
    holds after) (carries : regime.Carries watched plain) :
    (regime.along holds).Carries watched plain :=
  fun heap safe => (carries heap safe.1).along lasts safe.2

end Along

namespace Keeps

theorem carries {action : Action α} (keeps : regime.Keeps action) :
    regime.Carries action action := by
  intro heap safe outcome after ran
  exact ⟨ran, keeps heap safe outcome after ran⟩

theorem of_on {action : Action α} (outcome : Heap → Except Fault α)
    (ran : ∀ heap, regime.safe heap → action.on heap = some (outcome heap, heap)) :
    regime.Keeps action := by
  intro heap safe
  exact .of_on (ran heap safe) (.refl safe)

theorem pure (result : α) : regime.Keeps (pure result) :=
  of_on (fun _ => .ok result) fun _ _ => rfl

theorem ofExcept (outcome : Except Fault α) : regime.Keeps (Action.ofExcept outcome) :=
  of_on (fun _ => outcome) fun _ _ => rfl

theorem throw (fault : Fault) : regime.Keeps (throw fault : Action α) :=
  of_on (fun _ => .error fault) fun _ _ => rfl

theorem get : regime.Keeps (MonadState.get : Action Heap) :=
  of_on (fun heap => .ok heap) fun _ _ => rfl

theorem exhausted : regime.Keeps (Action.exhausted : Action α) := by
  intro heap safe outcome after ran
  cases ran

theorem modify {change : Heap → Heap}
    (reaches : ∀ heap, regime.safe heap → regime.Reaches heap (change heap)) :
    regime.Keeps (modify change : Action PUnit) := by
  intro heap safe
  exact .of_on rfl (reaches heap safe)

theorem bind {action : Action α} {next : α → Action β} (keeps : regime.Keeps action)
    (keepsNext : ∀ result, regime.Keeps (next result)) : regime.Keeps (action >>= next) :=
  (keeps.carries.bind fun result => (keepsNext result).carries).keeps

end Keeps

namespace Carries

theorem pure (result : α) : regime.Carries (pure result) (pure result) :=
  (Keeps.pure result).carries

theorem map {watched plain : Action α} (carries : regime.Carries watched plain) (f : α → β) :
    regime.Carries (f <$> watched) (f <$> plain) :=
  carries.bind fun result => pure (f result)

end Carries

end Regime

end ObjectModel
