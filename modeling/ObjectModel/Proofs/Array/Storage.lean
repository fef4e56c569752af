import ObjectModel.Object.Elements
import ObjectModel.Proofs.Table.Ascending

/-!
# Elements without their storage

Elements are seen as the ascending map of their slots.  Every operation on them is an operation on
that map, whatever the storage and whether or not it changes.
-/

namespace ObjectModel

theorem slots_populated (position : Nat) (slots : List (Option Slot)) :
    (populated position slots).map Prod.snd = slots.filterMap id := by
  induction slots generalizing position with
  | nil => rfl
  | cons head rest inductionHypothesis =>
    cases head with
    | none => exact inductionHypothesis (position + 1)
    | some slot => simp [populated, inductionHypothesis]

theorem lt_of_mem_populated {position : Nat} {slots : List (Option Slot)} {entry : Nat × Slot}
    (member : entry ∈ populated position slots) : entry.1 < position + slots.length := by
  induction slots generalizing position with
  | nil => simp [populated] at member
  | cons head rest inductionHypothesis =>
    have later : entry ∈ populated (position + 1) rest →
        entry.1 < position + (head :: rest).length := by
      intro memberRest
      have below := inductionHypothesis memberRest
      rw [List.length_cons]
      omega
    cases head with
    | none => exact later member
    | some slot =>
      rcases List.mem_cons.mp member with rfl | memberRest
      · simp
      · exact later memberRest

theorem populated_drop (position target : Nat) (slots : List (Option Slot)) :
    ((populated position slots).filter fun entry => target ≤ entry.1).map Prod.snd =
      (slots.drop (target - position)).filterMap id := by
  induction slots generalizing position with
  | nil => simp [populated]
  | cons head rest inductionHypothesis =>
    rcases Nat.lt_or_ge position target with before | reached
    · have next : target - position = target - (position + 1) + 1 := by omega
      have dropped : ¬target ≤ position := Nat.not_le_of_lt before
      rw [next, List.drop_succ_cons, ← inductionHypothesis (position + 1)]
      cases head <;> simp [populated, dropped]
    · have all : (populated position (head :: rest)).filter (fun entry => target ≤ entry.1) =
          populated position (head :: rest) := by
        refine List.filter_eq_self.mpr ?_
        intro entry member
        exact decide_eq_true (Nat.le_trans reached (le_of_mem_populated member))
      rw [all, Nat.sub_eq_zero_of_le reached, List.drop_zero, slots_populated]

theorem lastFixed?_eq (target position : Nat) (slots : List (Option Slot)) :
    lastFixed? target position slots =
      ((populated position slots).reverse.find? fun entry =>
        target ≤ entry.1 && !entry.2.isConfigurable).map Prod.fst := by
  induction slots generalizing position with
  | nil => rfl
  | cons head rest inductionHypothesis =>
    simp only [lastFixed?, inductionHypothesis (position + 1)]
    cases head with
    | none =>
      simp only [populated, Option.any_none, Bool.and_false, Bool.false_eq_true, if_false]
      cases List.find? _ (populated (position + 1) rest).reverse <;> rfl
    | some slot =>
      simp only [populated, List.reverse_cons, List.find?_append, Option.any_some]
      cases List.find? _ (populated (position + 1) rest).reverse with
      | some entry => rfl
      | none =>
        by_cases fixed : (decide (target ≤ position) && !slot.isConfigurable) = true
        · simp [List.find?, fixed]
        · simp [List.find?, fixed]

/-- A list with the members at two positions exchanged; positions beyond its end change nothing. -/
def exchange {α : Type} (members : List α) (a b : Nat) : List α :=
  match members[a]?, members[b]? with
  | some first, some second => (members.set a second).set b first
  | _, _ => members

theorem exchange_self {α : Type} (members : List α) (a : Nat) : exchange members a a = members := by
  simp only [exchange]
  split
  next first second foundFirst _ =>
    obtain ⟨inside, rfl⟩ := List.getElem?_eq_some_iff.mp foundFirst
    rw [List.set_set, List.set_getElem_self]
  next => rfl

theorem exchange_comm {α : Type} (members : List α) (a b : Nat) :
    exchange members a b = exchange members b a := by
  by_cases same : a = b
  · rw [same]
  · cases first : members[a]? <;> cases second : members[b]? <;>
      simp [exchange, first, second, List.set_comm _ _ same]

theorem exchange_min_max {α : Type} (members : List α) (a b : Nat) :
    exchange members (min a b) (max a b) = exchange members a b := by
  rcases Nat.le_total a b with le | le
  · rw [Nat.min_eq_left le, Nat.max_eq_right le]
  · rw [Nat.min_eq_right le, Nat.max_eq_left le, exchange_comm]

theorem exchange_of_beyond {α : Type} {members : List α} {low high : Nat}
    (beyond : members.length ≤ high) : exchange members low high = members := by
  cases found : members[low]? <;>
    simp [exchange, found, List.getElem?_eq_none beyond]

theorem passOver_eq {α : Type} (n : Nat) (members : List α) :
    passOver n members =
      members[n]?.map fun next => (members.take n, next, members.drop (n + 1)) := by
  induction members generalizing n with
  | nil => cases n <;> rfl
  | cons member rest inductionHypothesis =>
    cases n with
    | zero => rfl
    | succ n =>
      rw [passOver, inductionHypothesis, List.getElem?_cons_succ]
      cases rest[n]? <;> rfl

/-- One pass that counts the higher position from behind the lower one reaches both. -/
theorem exchangeInPass_eq {α : Type} (members : List α) {low high : Nat} (before : low < high) :
    exchangeInPass members low high = exchange members low high := by
  obtain ⟨gap, rfl⟩ := Nat.exists_eq_add_of_lt before
  have offset : low + gap + 1 - low - 1 = gap := by omega
  have reached : (members.drop (low + 1))[gap]? = members[low + gap + 1]? := by
    rw [List.getElem?_drop]
    congr 1
    omega
  simp only [exchangeInPass, passOver_eq, exchange, offset]
  cases foundLow : members[low]? with
  | none => rfl
  | some first =>
    simp only [Option.map_some, reached]
    cases foundHigh : members[low + gap + 1]? with
    | none => rfl
    | some second =>
      obtain ⟨insideLow, _⟩ := List.getElem?_eq_some_iff.mp foundLow
      obtain ⟨insideHigh, _⟩ := List.getElem?_eq_some_iff.mp foundHigh
      have lengthFront : (members.take low).length = low :=
        List.length_take_of_le (Nat.le_of_lt insideLow)
      have insideRest : gap < (members.drop (low + 1)).length := by
        rw [List.length_drop]
        omega
      have setLow : members.set low second =
          members.take low ++ second :: members.drop (low + 1) := by
        rw [List.set_eq_take_append_cons_drop, if_pos insideLow]
      have setHigh : (members.drop (low + 1)).set gap first =
          (members.drop (low + 1)).take gap ++
            first :: (members.drop (low + 1)).drop (gap + 1) := by
        rw [List.set_eq_take_append_cons_drop, if_pos insideRest]
      have position : low + gap + 1 - low = gap + 1 := by omega
      simp only [Option.map_some, setLow]
      rw [List.set_append_right _ _ (by omega), lengthFront, position, List.set_cons_succ, setHigh,
        List.append_assoc, List.cons_append]

theorem exchange_perm {α : Type} (members : List α) (a b : Nat) :
    (exchange members a b).Perm members := by
  simp only [exchange]
  split
  next first second foundFirst foundSecond =>
    obtain ⟨insideA, rfl⟩ := List.getElem?_eq_some_iff.mp foundFirst
    obtain ⟨insideB, rfl⟩ := List.getElem?_eq_some_iff.mp foundSecond
    exact List.set_set_perm insideA insideB
  next => exact .refl _

theorem length_exchange {α : Type} (members : List α) (a b : Nat) :
    (exchange members a b).length = members.length :=
  (exchange_perm members a b).length_eq

theorem AscendingMap.length_exchange_values {ν : Type} (map : AscendingMap ν) (a b : Nat) :
    (exchange map.values a b).length = map.size := by
  rw [length_exchange, length_values]

namespace Elements

theorem entries_toSparse (elements : Elements) : elements.toSparse.entries = elements.entries := by
  cases elements <;> rfl

@[simp]
theorem toSparse_clear (elements : Elements) (index : Nat) :
    (elements.clear index).toSparse = elements.toSparse.erase index :=
  AscendingMap.ext_get? fun wanted => by simp

@[simp]
theorem toSparse_put (policy : Policy) (count : Nat) (elements : Elements) (index : Nat)
    (slot : Slot) :
    (elements.put policy count index slot).toSparse = elements.toSparse.insert index slot :=
  AscendingMap.ext_get? fun wanted => by simp

@[simp]
theorem toSparse_modify {elements : Elements} {index : Nat}
    (present : (elements.get? index).isSome) (slot : Slot) :
    (elements.modify index slot).toSparse = elements.toSparse.insert index slot :=
  AscendingMap.ext_get? fun wanted => by simp [present]

@[simp]
theorem toSparse_dropFrom (policy : Policy) (elements : Elements) (target : Nat) :
    (elements.dropFrom policy target).toSparse =
      elements.toSparse.filterIndex fun index => index < target :=
  AscendingMap.ext_get? fun wanted => by simp

theorem slotsFrom_eq (elements : Elements) (target : Nat) :
    elements.slotsFrom target =
      (elements.toSparse.filterIndex fun index => target ≤ index).values := by
  cases elements with
  | dense slots capacity => exact (populated_drop 0 target slots).symm
  | sparse slots => rfl

theorem sortSwap_dense (slots : List (Option Slot)) (capacity a b : Nat) :
    (dense slots capacity).sortSwap a b = .dense (exchange slots a b) capacity := by
  rw [← exchange_min_max, sortSwap]
  split
  next same => rw [same, exchange_self]
  next =>
    split
    next inside =>
      have insideLow : min a b < slots.length := by omega
      simp [exchange, inside, insideLow]
    next outside => rw [exchange_of_beyond (Nat.le_of_not_lt outside)]

theorem sortSwap_sparse (slots : AscendingMap Slot) (a b : Nat) :
    (sparse slots).sortSwap a b = .sparse (slots.withValues (exchange slots.values a b)) := by
  rw [← exchange_min_max, sortSwap]
  split
  next same => rw [same, exchange_self, slots.withValues_values]
  next differ => rw [exchangeInPass_eq _ (by omega)]

theorem values_sortSwap (elements : Elements) (a b : Nat) :
    (elements.sortSwap a b).toSparse.values.Perm elements.toSparse.values := by
  cases elements with
  | dense slots capacity =>
    rw [sortSwap_dense]
    simp only [AscendingMap.values, toSparse, slots_populated]
    exact (exchange_perm slots a b).filterMap id
  | sparse slots =>
    have sameSize := slots.length_exchange_values a b
    rw [sortSwap_sparse]
    simp only [toSparse, AscendingMap.values_withValues sameSize]
    exact exchange_perm slots.values a b

/-- The elements fit below a length: a dense buffer is no longer, and sparse slots lie below it. -/
def Within (elements : Elements) (length : Nat) : Prop :=
  match elements with
  | .dense slots _ => slots.length ≤ length
  | .sparse slots => ∀ entry ∈ slots.entries, entry.1 < length

namespace Within

variable {elements : Elements} {length : Nat}

theorem mono (within : elements.Within length) {longer : Nat} (le : length ≤ longer) :
    elements.Within longer := by
  cases elements with
  | dense slots capacity => exact Nat.le_trans within le
  | sparse slots => exact fun entry member => Nat.lt_of_lt_of_le (within entry member) le

theorem lt_of_mem (within : elements.Within length) {entry : Nat × Slot}
    (member : entry ∈ elements.toSparse.entries) : entry.1 < length := by
  cases elements with
  | dense slots capacity =>
    have below := lt_of_mem_populated member
    rw [Nat.zero_add] at below
    exact Nat.lt_of_lt_of_le below within
  | sparse slots => exact within entry member

theorem lt_of_get? (within : elements.Within length) {index : Nat} {slot : Slot}
    (found : elements.get? index = some slot) : index < length := by
  rw [← get?_toSparse, AscendingMap.get?_eq_some_iff] at found
  exact within.lt_of_mem found

theorem clear (within : elements.Within length) (index : Nat) :
    (elements.clear index).Within length := by
  cases elements with
  | dense slots capacity =>
    simp only [Within, Elements.clear, List.length_set]
    exact within
  | sparse slots => exact fun entry member => within entry (List.mem_filter.mp member).1

theorem modify (within : elements.Within length) {index : Nat}
    (present : (elements.get? index).isSome) (slot : Slot) :
    (elements.modify index slot).Within length := by
  cases elements with
  | dense slots capacity =>
    simp only [Within, Elements.modify, List.length_set]
    exact within
  | sparse slots =>
    obtain ⟨old, found⟩ := Option.isSome_iff_exists.mp present
    intro entry member
    rcases AscendingMap.fst_of_mem_upsert member with here | other
    · rw [here]
      exact lt_of_get? within found
    · exact within entry other

theorem put (within : elements.Within length) {index : Nat} (inside : index < length)
    (policy : Policy) (count : Nat) (slot : Slot) :
    (elements.put policy count index slot).Within length := by
  have sparsely : ∀ map : AscendingMap Slot, (∀ entry ∈ map.entries, entry.1 < length) →
      ∀ entry ∈ (map.insert index slot).entries, entry.1 < length := by
    intro map below entry member
    rcases AscendingMap.fst_of_mem_upsert member with here | other
    · rw [here]
      exact inside
    · exact below entry other
  cases elements with
  | sparse slots => exact sparsely slots within
  | dense slots capacity =>
    have extendedWithin : ∀ capacity, slots.length ≤ index →
        (Elements.dense (extended slots index slot) capacity).Within length := by
      intro capacity beyond
      simp only [Within, extended, List.length_append, List.length_replicate, List.length_singleton]
      omega
    simp only [Elements.put]
    split
    next =>
      simp only [Within, List.length_set]
      exact within
    next outside =>
      have beyond : slots.length ≤ index := Nat.le_of_not_lt outside
      split
      next => exact extendedWithin _ beyond
      next =>
        split
        next => exact sparsely _ fun entry member => within.lt_of_mem member
        next => exact extendedWithin _ beyond

theorem dropFrom (within : elements.Within length) (policy : Policy) (target : Nat) :
    (elements.dropFrom policy target).Within target := by
  cases elements with
  | dense slots capacity =>
    simp only [Elements.dropFrom]
    split
    next short => exact short
    next => exact List.length_take_le target slots
  | sparse slots =>
    intro entry member
    simpa using (List.mem_filter.mp member).2

theorem sortSwap (within : elements.Within length) (a b : Nat) :
    (elements.sortSwap a b).Within length := by
  cases elements with
  | dense slots capacity =>
    rw [Elements.sortSwap_dense]
    exact Nat.le_trans (Nat.le_of_eq (length_exchange slots a b)) within
  | sparse slots =>
    rw [Elements.sortSwap_sparse]
    intro entry member
    have index : entry.1 ∈ slots.entries.map Prod.fst := (List.of_mem_zip member).1
    obtain ⟨old, memberOld, same⟩ := List.mem_map.mp index
    rw [← same]
    exact within old memberOld

/-- Below the length the search for an element that must stay does not depend on the storage. -/
theorem lastFixedFrom? (within : elements.Within length) (target : Nat) :
    elements.lastFixedFrom? target length =
      elements.toSparse.lastFrom? (fun slot => !slot.isConfigurable) target := by
  cases elements with
  | dense slots capacity =>
    simp only [Elements.lastFixedFrom?, List.take_of_length_le within, lastFixed?_eq]
    rfl
  | sparse slots => rfl

end Within

end Elements

end ObjectModel
