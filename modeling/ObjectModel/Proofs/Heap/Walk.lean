import ObjectModel.Proofs.Heap.Assignment
import ObjectModel.Proofs.Heap.Tidy

/-!
# Walks along prototype links

A search for a key visits the objects that the prototype links lead to, cyclic or not, one after
another.  It ends at the first holder of the key, behind the last object, at a handle that cannot be
looked at, or when it has visited as many objects as it may.  What a chain of prototypes leads to
does not depend on the object that it starts from.
-/

namespace ObjectModel

namespace Heap

variable {heap after : Heap} {id next : ObjectId} {key : Key} {cursor last : Option ObjectId}
  {object : Object} {objects passed rest : List Object} {limit depth : Nat}

/-- The objects that the links lead to from a link, and the link behind the last of them.  Along a
cycle an object occurs again and again. -/
inductive Walk (heap : Heap) : Option ObjectId → List Object → Option ObjectId → Prop
  | stay (cursor : Option ObjectId) : Walk heap cursor [] cursor
  | step {id : ObjectId} {object : Object} {rest : List Object} {last : Option ObjectId}
      (seen : heap.examine id = .ok object) (walk : Walk heap object.prototype rest last) :
      Walk heap (some id) (object :: rest) last

/-- What a search for a key comes to that may visit at most `limit` objects. -/
inductive Finds (heap : Heap) (key : Key) (limit : Nat) (id : ObjectId) :
    Except Fault (Option Slot) → Prop
  | held {passed : List Object} {next : ObjectId} {holder : Object} {slot : Slot}
      (walk : heap.Walk (some id) passed (some next))
      (lacking : ∀ object ∈ passed, object.getOwn key = none) (room : passed.length < limit)
      (seen : heap.examine next = .ok holder) (found : holder.getOwn key = some slot) :
      Finds heap key limit id (.ok (some slot))
  | absent {passed : List Object} (walk : heap.Walk (some id) passed none)
      (lacking : ∀ object ∈ passed, object.getOwn key = none) (fits : passed.length ≤ limit) :
      Finds heap key limit id (.ok none)
  | tooDeep {passed : List Object} {next : ObjectId}
      (walk : heap.Walk (some id) passed (some next))
      (lacking : ∀ object ∈ passed, object.getOwn key = none) (full : passed.length = limit) :
      Finds heap key limit id (.error (.internal .chainTooDeep))
  | unseen {passed : List Object} {next : ObjectId} {fault : Fault}
      (walk : heap.Walk (some id) passed (some next))
      (lacking : ∀ object ∈ passed, object.getOwn key = none) (room : passed.length < limit)
      (unseen : heap.examine next = .error fault) : Finds heap key limit id (.error fault)

theorem exists_of_examine_eq_error {fault : Fault} (unseen : heap.examine id = .error fault) :
    ∃ why, fault = .internal why := by
  unfold examine look held at unseen
  cases found : heap.cell? id with
  | none =>
    simp only [found, Except.bind] at unseen
    exact ⟨_, (Except.error.inj unseen).symm⟩
  | some cell =>
    simp only [found, Except.bind, ObjectCell.read] at unseen
    cases borrow : cell.borrow with
    | exclusive =>
      simp only [borrow] at unseen
      exact ⟨_, (Except.error.inj unseen).symm⟩
    | _ =>
      simp only [borrow, viewed] at unseen
      cases shown : heap.view? cell.value with
      | some object =>
        rw [shown] at unseen
        cases unseen
      | none =>
        rw [shown] at unseen
        exact ⟨_, (Except.error.inj unseen).symm⟩

namespace Walk

theorem snoc (walk : heap.Walk cursor passed (some next)) (seen : heap.examine next = .ok object) :
    heap.Walk cursor (passed ++ [object]) object.prototype := by
  generalize link : some next = last at walk
  induction walk with
  | stay cursor =>
    subst link
    exact .step seen (.stay _)
  | step seenFirst walk inductionHypothesis => exact .step seenFirst (inductionHypothesis link)

end Walk

/-- The property at a key of the first of at most `depth` objects that links lead to from a link. -/
def foundFrom (heap : Heap) (key : Key) (depth : Nat) :
    Option ObjectId → Except Fault (Option Slot)
  | none => .ok none
  | some id => heap.foundWithin key depth id

theorem foundWithin_succ (heap : Heap) (key : Key) (depth : Nat) (id : ObjectId) :
    heap.foundWithin key (depth + 1) id =
      (heap.examine id).bind fun object =>
        match object.getOwn key with
        | some slot => .ok (some slot)
        | none => heap.foundFrom key depth object.prototype := by
  unfold foundWithin
  cases heap.examine id with
  | error fault => rfl
  | ok object =>
    simp only [Except.bind]
    cases object.getOwn key with
    | some slot => rfl
    | none => cases object.prototype <;> rfl

/-- A search goes on behind the objects that lack the key. -/
theorem Walk.foundFrom_eq (walk : heap.Walk cursor passed last)
    (lacking : ∀ object ∈ passed, object.getOwn key = none) (depth : Nat) :
    heap.foundFrom key (passed.length + depth) cursor = heap.foundFrom key depth last := by
  induction walk with
  | stay cursor => rw [List.length_nil, Nat.zero_add]
  | @step id object rest last seen walk inductionHypothesis =>
    have onward := inductionHypothesis fun other member =>
      lacking other (List.mem_cons_of_mem _ member)
    rw [List.length_cons, Nat.add_right_comm, foundFrom, foundWithin_succ, seen]
    simp only [Except.bind, lacking object List.mem_cons_self]
    exact onward

theorem Walk.finds (walk : heap.Walk (some id) passed cursor)
    (lacking : ∀ object ∈ passed, object.getOwn key = none) (depth : Nat) :
    heap.Finds key (passed.length + depth) id (heap.foundFrom key depth cursor) := by
  induction depth generalizing passed cursor with
  | zero =>
    cases cursor with
    | none => exact .absent walk lacking (Nat.le_refl _)
    | some next => exact .tooDeep walk lacking rfl
  | succ depth inductionHypothesis =>
    cases cursor with
    | none => exact .absent walk lacking (Nat.le_add_right _ _)
    | some next =>
      have room : passed.length < passed.length + (depth + 1) := by omega
      rw [foundFrom, foundWithin_succ]
      cases seen : heap.examine next with
      | error fault => exact .unseen walk lacking room seen
      | ok object =>
        simp only [Except.bind]
        cases found : object.getOwn key with
        | some slot => exact .held walk lacking room seen found
        | none =>
          have lackingToo : ∀ other ∈ passed ++ [object], other.getOwn key = none := by
            intro other member
            rcases List.mem_append.mp member with earlier | here
            · exact lacking other earlier
            · rw [List.mem_singleton.mp here, found]
          have onward := inductionHypothesis (walk.snoc seen) lackingToo
          rwa [List.length_append, List.length_singleton, Nat.add_right_comm] at onward

theorem Finds.foundWithin_eq {outcome : Except Fault (Option Slot)}
    (finds : heap.Finds key limit id outcome) : heap.foundWithin key limit id = outcome := by
  have behind {passed last} (walk : heap.Walk (some id) passed last)
      (lacking : ∀ object ∈ passed, object.getOwn key = none) (fits : passed.length ≤ limit) :
      heap.foundWithin key limit id = heap.foundFrom key (limit - passed.length) last := by
    have onward := walk.foundFrom_eq lacking (limit - passed.length)
    rwa [Nat.add_sub_cancel' fits] at onward
  have visit {passed next} (walk : heap.Walk (some id) passed (some next))
      (lacking : ∀ object ∈ passed, object.getOwn key = none) (room : passed.length < limit) :
      ∃ depth, heap.foundWithin key limit id = heap.foundWithin key (depth + 1) next := by
    refine ⟨limit - passed.length - 1, ?_⟩
    rw [behind walk lacking (Nat.le_of_lt room), Nat.sub_add_cancel (Nat.sub_pos_of_lt room)]
    rfl
  cases finds with
  | held walk lacking room seen found =>
    obtain ⟨depth, onward⟩ := visit walk lacking room
    rw [onward, foundWithin_succ, seen]
    simp only [Except.bind, found]
  | absent walk lacking fits => exact behind walk lacking fits
  | tooDeep walk lacking full =>
    rw [behind walk lacking (Nat.le_of_eq full), full, Nat.sub_self]
    rfl
  | unseen walk lacking room unseen =>
    obtain ⟨depth, onward⟩ := visit walk lacking room
    rw [onward, foundWithin_succ, unseen]
    rfl

/-- Every search comes to something, and to one thing only. -/
theorem finds_iff {outcome : Except Fault (Option Slot)} :
    heap.Finds key limit id outcome ↔ heap.foundWithin key limit id = outcome := by
  constructor
  · exact Finds.foundWithin_eq
  · rintro rfl
    have still : heap.Walk (some id) [] (some id) := .stay (some id)
    have lacking : ∀ object ∈ ([] : List Object), object.getOwn key = none := nofun
    have finds := still.finds lacking limit
    rwa [List.length_nil, Nat.zero_add] at finds

theorem Finds.exists_of_error {fault : Fault} (finds : heap.Finds key limit id (.error fault)) :
    ∃ why, fault = .internal why := by
  cases finds with
  | tooDeep => exact ⟨_, rfl⟩
  | unseen _ _ _ unseen => exact exists_of_examine_eq_error unseen

theorem examine_congr (cell : after.cell? id = heap.cell? id)
    (collections : after.collections = heap.collections) : after.examine id = heap.examine id := by
  unfold examine look held
  rw [cell]
  congr 1
  funext representation
  unfold viewed
  rw [view?_congr collections]

/-- Heaps without lazy objects in which all handles but one are those of the same objects. -/
structure Alters (before after : Heap) (id : ObjectId) (next : Object) : Prop where
  eager : after.Eager
  seen : after.examine id = .ok next
  others : ∀ other, other ≠ id → after.examine other = before.examine other
  policy : after.policy = before.policy

namespace Chain

theorem unique {others : List Object} (chain : heap.Chain id objects)
    (other : heap.Chain id others) : objects = others := by
  induction chain generalizing others with
  | last seen ends =>
    cases other with
    | last seenToo => rw [Except.ok.inj (seen.symm.trans seenToo)]
    | link seenToo linked =>
      cases seen.symm.trans seenToo
      cases ends.symm.trans linked
  | link seen linked chain inductionHypothesis =>
    cases other with
    | last seenToo ends =>
      cases seen.symm.trans seenToo
      cases ends.symm.trans linked
    | link seenToo linkedToo rest =>
      cases seen.symm.trans seenToo
      cases linked.symm.trans linkedToo
      rw [inductionHypothesis rest]

/-- A chain survives a change of one object, unless it leads there. -/
theorem kept_or_meets (unchanged : ∀ other, other ≠ id → after.examine other = heap.examine other)
    (chain : heap.Chain next rest) :
    after.Chain next rest ∨ ∃ own, heap.Chain id own ∧ own.length ≤ rest.length := by
  induction chain with
  | @last next object seen ends =>
    by_cases here : next = id
    · exact .inr ⟨_, here ▸ .last seen ends, Nat.le_refl _⟩
    · exact .inl (.last ((unchanged next here).trans seen) ends)
  | @link next further object rest seen linked chain inductionHypothesis =>
    by_cases here : next = id
    · exact .inr ⟨_, here ▸ .link seen linked chain, Nat.le_refl _⟩
    · rcases inductionHypothesis with kept | ⟨own, chainOwn, short⟩
      · exact .inl (.link ((unchanged next here).trans seen) linked kept)
      · exact .inr ⟨own, chainOwn, Nat.le_succ_of_le short⟩

theorem behind (chain : heap.Chain id (object :: rest)) (linked : object.prototype = some next)
    (unchanged : ∀ other, other ≠ id → after.examine other = heap.examine other) :
    after.Chain next rest := by
  cases chain with
  | last seen ends => cases ends.symm.trans linked
  | link seen linkedToo chain =>
    cases linked.symm.trans linkedToo
    rcases chain.kept_or_meets unchanged with kept | ⟨own, chainOwn, short⟩
    · exact kept
    · have same := chainOwn.unique (.link seen linkedToo chain)
      rw [same] at short
      exact absurd short (Nat.not_succ_le_self _)

end Chain

/-- A search for an object that ends without having met it has walked a chain, which survives a
change of the object. -/
theorem exists_chain_of_linksTo (avoids : heap.linksTo id limit (some next) = .ok false)
    (unchanged : ∀ other, other ≠ id → after.examine other = heap.examine other) :
    ∃ objects, objects.length ≤ limit ∧ heap.Chain next objects ∧ after.Chain next objects := by
  induction limit generalizing next with
  | zero =>
    unfold linksTo at avoids
    split at avoids <;> cases avoids
  | succ limit inductionHypothesis =>
    unfold linksTo at avoids
    split at avoids
    next => cases avoids
    next apart =>
      obtain ⟨link, linked, avoids⟩ := exists_of_bind_eq_ok avoids
      obtain ⟨object, seen, rfl⟩ := exists_of_map_eq_ok linked
      have seenAfter := (unchanged next apart).trans seen
      cases ends : object.prototype with
      | none =>
        exact ⟨[object], Nat.succ_le_succ (Nat.zero_le _), .last seen ends, .last seenAfter ends⟩
      | some further =>
        rw [ends] at avoids
        obtain ⟨objects, short, chain, chainAfter⟩ := inductionHypothesis avoids
        exact ⟨object :: objects, Nat.succ_le_succ short, .link seen ends chain,
          .link seenAfter ends chainAfter⟩

end Heap

end ObjectModel
