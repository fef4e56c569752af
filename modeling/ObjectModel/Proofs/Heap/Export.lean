import ObjectModel.Heap.Run
import ObjectModel.Proofs.Heap.Assignment
import ObjectModel.Proofs.Heap.Enumeration
import ObjectModel.Proofs.Heap.Projection

/-!
# Export

An export follows what values hold, down to those that hold nothing, and keeps the objects on its
way in a list.  It meets one of them again exactly if something that is held lies on a cycle;
otherwise it ends with the tree of the value.  As the objects on the way are distinct, the size of
the heap bounds how deep it gets.
-/

namespace ObjectModel

theorem Object.exists_getOwn {object : Object} {key : Key} (hasEntries : object.hasEntries = true)
    (listed : key ∈ object.enumerableKeys) : ∃ slot, object.getOwn key = some slot := by
  have found (base : OrdinaryObject) (listed : key ∈ (base.ownKeys.filter Prod.snd).map Prod.fst) :
      ∃ slot, base.getOwn key = some slot := by
    obtain ⟨⟨_, enumerable⟩, member, rfl⟩ := List.mem_map.mp listed
    obtain ⟨slot, own, _⟩ := (base.mem_ownKeys _ enumerable).mp (List.mem_filter.mp member).1
    exact ⟨slot, own⟩
  cases object
  case ordinary inner => exact found inner listed
  case function base => exact found base listed
  all_goals cases hasEntries

namespace Heap

variable {heap : Heap} {α β γ : Type} {cyclic : Prop}

/-- Whether an action leaves a heap alone, and ends with a right result or, if there is a cycle,
with the fault that tells so. -/
inductive Settles (heap : Heap) (action : Action α) (right : α → Prop) (cyclic : Prop) : Prop
  | ended {result : α} (ran : action.on heap = some (.ok result, heap)) (isRight : right result)
  | circular (ran : action.on heap = some (.error (.typeMismatch .circular), heap))
      (isCyclic : cyclic)

namespace Settles

variable {action : Action α} {right : α → Prop} {final : β → Prop} {next : α → Action β}

theorem bind (settles : heap.Settles action right cyclic)
    (continues : ∀ result, right result → heap.Settles (next result) final cyclic) :
    heap.Settles (action >>= next) final cyclic := by
  cases settles with
  | ended ran isRight =>
    cases continues _ isRight with
    | ended ranNext isFinal => exact .ended ((Action.on_bind_ok ran next).trans ranNext) isFinal
    | circular ranNext isCyclic =>
      exact .circular ((Action.on_bind_ok ran next).trans ranNext) isCyclic
  | circular ran isCyclic => exact .circular (Action.on_bind_error ran next) isCyclic

theorem bind_ok {result : α} (ran : action.on heap = some (.ok result, heap))
    (continues : heap.Settles (next result) final cyclic) :
    heap.Settles (action >>= next) final cyclic := by
  have settles : heap.Settles action (· = result) cyclic := .ended ran rfl
  exact settles.bind fun _ same => same ▸ continues

theorem pure {result : β} (isFinal : final result) :
    heap.Settles (Pure.pure result : Action β) final cyclic := .ended rfl isFinal

theorem mono {wider : α → Prop} (settles : heap.Settles action right cyclic)
    (widen : ∀ result, right result → wider result) : heap.Settles action wider cyclic := by
  cases settles with
  | ended ran isRight => exact .ended ran (widen _ isRight)
  | circular ran isCyclic => exact .circular ran isCyclic

theorem collectFrom {actions : Nat → Action α} {rights : Nat → α → Prop} {count first : Nat}
    (each : ∀ index, first ≤ index → index < first + count →
      heap.Settles (actions index) (rights index) cyclic) (collected : List α) :
    heap.Settles (Heap.collectFrom actions count first collected)
      (fun results => ∃ items, results = collected.reverse ++ items ∧ items.length = count ∧
        ∀ i (inside : i < items.length), rights (first + i) items[i]) cyclic := by
  induction count generalizing first collected with
  | zero => exact pure ⟨[], (List.append_nil _).symm, rfl, nofun⟩
  | succ count inductionHypothesis =>
    have here := each first (Nat.le_refl _) (by omega)
    refine here.bind fun result isRight => ?_
    have each : ∀ index, first + 1 ≤ index → index < first + 1 + count →
        heap.Settles (actions index) (rights index) cyclic :=
      fun index above below => each index (by omega) (by omega)
    refine (inductionHypothesis each (result :: collected)).mono ?_
    rintro _ ⟨items, rfl, length, areRight⟩
    refine ⟨result :: items, by simp, congrArg (· + 1) length, ?_⟩
    intro i inside
    cases i with
    | zero => exact isRight
    | succ i =>
      have later := areRight i (Nat.lt_of_succ_lt_succ inside)
      rwa [Nat.add_right_comm first 1 i] at later

theorem mapM {actions : γ → Action α} {rights : γ → α → Prop} {arguments : List γ}
    (each : ∀ argument ∈ arguments,
      heap.Settles (actions argument) (rights argument) cyclic) :
    heap.Settles (arguments.mapM actions)
      (fun results => ∃ items : List (γ × α), results = items.map Prod.snd ∧
        items.map Prod.fst = arguments ∧ ∀ item ∈ items, rights item.1 item.2) cyclic := by
  induction arguments with
  | nil => exact pure ⟨[], rfl, rfl, nofun⟩
  | cons argument rest inductionHypothesis =>
    rw [List.mapM_cons]
    refine (each argument List.mem_cons_self).bind fun result isRight => ?_
    have later := inductionHypothesis fun other member => each other (List.mem_cons_of_mem _ member)
    refine later.bind ?_
    rintro _ ⟨items, rfl, rfl, areRight⟩
    refine pure ⟨(argument, result) :: items, rfl, rfl, ?_⟩
    exact List.forall_mem_cons.mpr ⟨isRight, areRight⟩

end Settles

section Reading

variable {id : ObjectId} {object : Object} {key : Key}

theorem on_resolve (engine : Engine) {slot : Slot} (plain : slot.descriptor.isAccessor = false)
    (receiver : Value) :
    (resolve engine slot receiver).on heap =
      some (.ok (slot.descriptor.value?.getD .undefined), heap) := by
  unfold resolve
  cases described : slot.descriptor with
  | data value attributes => rfl
  | accessor get set attributes =>
    rw [described] at plain
    cases plain

theorem Eager.on_getOwn (eager : heap.Eager) (engine : Engine) (seen : heap.examine id = .ok object)
    (plain : ∀ slot, object.getOwn key = some slot → slot.descriptor.isAccessor = false) :
    (getOwn engine id key).on heap = some (.ok (object.valueAt key), heap) := by
  have inspected := eager.on_inspect engine id
  rw [seen] at inspected
  unfold getOwn Object.valueAt
  rw [Action.on_bind_ok inspected]
  cases found : object.getOwn key with
  | none => rfl
  | some slot => exact on_resolve engine (plain slot found) _

theorem Eager.on_get_own (eager : heap.Eager) (visits : 1 ≤ heap.policy.maxPrototypeDepth)
    (engine : Engine) (seen : heap.examine id = .ok object) {slot : Slot}
    (own : object.getOwn key = some slot) (plain : slot.descriptor.isAccessor = false) :
    (get engine id key).on heap = some (.ok (object.valueAt key), heap) := by
  have inspected := eager.on_inspect engine id
  rw [seen] at inspected
  have owned := Action.on_bind_ok inspected fun object => pure (object.getOwn key).isSome
  have looked := eager.on_lookup engine id key
  have found : heap.foundWithin key heap.policy.maxPrototypeDepth id = .ok (some slot) := by
    obtain ⟨depth, same⟩ := Nat.exists_eq_add_of_le' visits
    rw [same]
    simp only [foundWithin, seen, Except.bind, own]
  rw [found] at looked
  rw [own] at owned
  have resolved : (resolve engine slot (.object id)).on heap =
      some (.ok (object.valueAt key), heap) := by
    refine (on_resolve engine plain _).trans ?_
    unfold Object.valueAt
    rw [own]
    rfl
  unfold get getFrom
  split
  next =>
    have unlinked := Action.on_bind_ok owned fun owns => pure !owns
    refine (Action.on_bind_ok unlinked _).trans ?_
    exact (Action.on_bind_ok looked _).trans resolved
  next => exact (Action.on_bind_ok looked _).trans resolved

theorem newKeys_of_nodup {entries : List (Key × Bool)} {seen : List Key}
    (nodup : (entries.map Prod.fst).Nodup) (fresh : ∀ entry ∈ entries, entry.1 ∉ seen) :
    (newKeys false seen entries).1 = (entries.filter Prod.snd).map Prod.fst := by
  induction entries generalizing seen with
  | nil => rfl
  | cons entry rest inductionHypothesis =>
    obtain ⟨key, enumerable⟩ := entry
    obtain ⟨absent, nodupRest⟩ := List.nodup_cons.mp nodup
    have freshRest : ∀ entry ∈ rest, entry.1 ∉ key :: seen := by
      intro entry member
      rw [List.mem_cons, not_or]
      refine ⟨fun same => absent ?_, fresh entry (List.mem_cons_of_mem _ member)⟩
      exact List.mem_map.mpr ⟨entry, member, same⟩
    simp only [newKeys, if_neg (fresh _ List.mem_cons_self),
      inductionHypothesis nodupRest freshRest]
    cases enumerable <;> rfl

theorem Eager.on_enumerate_own (eager : heap.Eager) (visits : 1 ≤ heap.policy.maxPrototypeDepth)
    (engine : Engine) (seen : heap.examine id = .ok object)
    (hasEntries : object.hasEntries = true) :
    (enumerate engine id false false).on heap = some (.ok object.enumerableKeys, heap) := by
  have inspected := eager.on_inspect engine id
  rw [seen] at inspected
  have nodup : (object.ownKeys.map Prod.fst).Nodup := by
    have further := object.base.properties.nodup
    cases object
    case ordinary inner => exact (Object.map_fst_ownKeys_base (.ordinary inner)).symm ▸ further
    case function base => exact (Object.map_fst_ownKeys_base (.function base)).symm ▸ further
    all_goals cases hasEntries
  obtain ⟨depth, same⟩ := Nat.exists_eq_add_of_le' visits
  unfold enumerate
  rw [Action.on_bind_ok (Action.on_get heap), same]
  unfold enumerateWithin
  rw [Action.on_bind_ok inspected]
  simp only [newKeys_of_nodup nodup fun _ _ => List.not_mem_nil]
  rfl

end Reading

theorem lt_size_of_examine {id : ObjectId} {object : Object} (seen : heap.examine id = .ok object) :
    id.index < heap.size := by
  obtain ⟨_, looked, _⟩ := exists_of_bind_eq_ok seen
  obtain ⟨_, found, _⟩ := cell?_of_look looked
  exact (Array.getElem?_eq_some_iff.mp found).1

/-- The objects on the way from which a value is reached: they are distinct, and the value is held
by each of them. -/
structure Route (heap : Heap) (path : List ObjectId) (value : Value) : Prop where
  nodup : path.Nodup
  inside : ∀ id ∈ path, id.index < heap.size
  leads : ∀ id ∈ path, ∃ child, heap.Holds (.object id) child ∧ heap.Reaches child value

namespace Route

variable {path : List ObjectId} {id : ObjectId} {object : Object} {root value child : Value}

theorem start (root : Value) : heap.Route [] root := ⟨.nil, nofun, nofun⟩

theorem step (route : heap.Route path (.object id)) (fresh : id ∉ path)
    (seen : heap.examine id = .ok object) (holds : heap.Holds (.object id) child) :
    heap.Route (id :: path) child where
  nodup := List.nodup_cons.mpr ⟨fresh, route.nodup⟩
  inside := List.forall_mem_cons.mpr ⟨lt_size_of_examine seen, route.inside⟩
  leads := by
    intro other member
    rcases List.mem_cons.mp member with rfl | passed
    · exact ⟨child, holds, .root⟩
    · obtain ⟨first, holdsFirst, reached⟩ := route.leads other passed
      exact ⟨first, holdsFirst, reached.held holds⟩

end Route

section Objects

variable {id : ObjectId} {exporting : Value → Action Tree}

/-- The elements of an array are read and exported one after another. -/
theorem settles_array (eager : heap.Eager) (engine : Engine) {array : ArrayObject}
    (seen : heap.examine id = .ok (.array array)) (plain : (Object.array array).Plain)
    (each : ∀ key ∈ (Object.array array).exportedKeys,
      heap.Settles (exporting ((Object.array array).valueAt key))
        (heap.Projects ((Object.array array).valueAt key)) cyclic) :
    heap.Settles (Tree.list <$> Heap.collectFrom (fun index => do
        exporting (← getOwn engine id (.ofIndex (UInt32.ofNat index)))) array.length 0 [])
      (heap.Projects (.object id)) cyclic := by
  have element : ∀ index, 0 ≤ index → index < 0 + array.length →
      heap.Settles (getOwn engine id (.ofIndex (UInt32.ofNat index)) >>= exporting)
        (heap.Projects ((Object.array array).valueAt (.ofIndex (UInt32.ofNat index)))) cyclic := by
    intro index _ below
    rw [Nat.zero_add] at below
    have listed : Key.ofIndex (UInt32.ofNat index) ∈ (Object.array array).exportedKeys :=
      List.mem_map.mpr ⟨index, List.mem_range.mpr below, rfl⟩
    exact .bind_ok (eager.on_getOwn engine seen (plain _ listed)) (each _ listed)
  refine (Settles.collectFrom element []).bind ?_
  rintro _ ⟨items, rfl, length, projected⟩
  refine .pure (.array seen length fun index inside => ?_)
  have here := projected index inside
  rwa [Nat.zero_add] at here

/-- The enumerable properties of an object are read and exported one after another. -/
theorem settles_entries (eager : heap.Eager) (visits : 1 ≤ heap.policy.maxPrototypeDepth)
    (engine : Engine) {object : Object} (seen : heap.examine id = .ok object)
    (hasEntries : object.hasEntries = true) (plain : object.Plain)
    (each : ∀ key ∈ object.exportedKeys,
      heap.Settles (exporting (object.valueAt key)) (heap.Projects (object.valueAt key)) cyclic) :
    heap.Settles (do
        let keys ← enumerate engine id false false
        let entries ← keys.mapM fun key => do
          let item ← get engine id key
          return (key.display, ← exporting item)
        return .ofEntries entries)
      (heap.Projects (.object id)) cyclic := by
  refine .bind_ok (eager.on_enumerate_own visits engine seen hasEntries) ?_
  have property : ∀ key ∈ object.enumerableKeys, heap.Settles (do
        let item ← get engine id key
        return (key.display, ← exporting item))
      (fun entry => entry.1 = key.display ∧ heap.Projects (object.valueAt key) entry.2) cyclic := by
    intro key listed
    obtain ⟨slot, own⟩ := Object.exists_getOwn hasEntries listed
    rw [← Object.exportedKeys_eq hasEntries] at listed
    refine .bind_ok (eager.on_get_own visits engine seen own (plain key listed slot own)) ?_
    exact (each key listed).bind fun tree projects => .pure ⟨rfl, projects⟩
  refine (Settles.mapM property).bind ?_
  rintro _ ⟨entries, rfl, keys, projected⟩
  have displayed : entries.map Prod.snd =
      (entries.map fun entry => (entry.1, entry.2.2)).map fun item => (item.1.display, item.2) := by
    rw [List.map_map]
    exact List.map_congr_left fun entry member => Prod.ext (projected entry member).1 rfl
  obtain ⟨sorted, same, gathers⟩ :=
    Tree.exists_gathers (entries.map fun entry => (entry.1, entry.2.2))
  rw [displayed, same]
  refine .pure (.entries seen hasEntries ?_ ?_ gathers)
  · rw [List.map_map]
    exact keys
  · intro item member
    obtain ⟨entry, memberEntry, rfl⟩ := List.mem_map.mp member
    exact (projected entry memberEntry).2

end Objects

/-- What is left of the heap suffices to go on, as the objects on the way are distinct. -/
theorem settles_exportWithin (eager : heap.Eager) (visits : 1 ≤ heap.policy.maxPrototypeDepth)
    (engine : Engine) {root : Value} (exportable : heap.Exportable root) {depth : Nat}
    {path : List ObjectId} {value : Value} (deep : heap.size < depth + path.length)
    (route : heap.Route path value) (reached : heap.Reaches root value) :
    heap.Settles (exportWithin engine depth path value) (heap.Projects value)
      (heap.ReachesCycle root) := by
  induction depth generalizing path value with
  | zero =>
    have short := length_le_size route.nodup route.inside
    omega
  | succ depth inductionHypothesis =>
    cases value with
    | undefined => exact .pure .undefined
    | null => exact .pure .null
    | boolean b => exact .pure (.boolean b)
    | number n => exact .pure (.number n)
    | text t => exact .pure (.text t)
    | object id =>
      unfold exportWithin
      obtain ⟨object, seen, plain⟩ := exportable id reached
      have inspected := eager.on_inspect engine id
      rw [seen] at inspected
      split
      next passed => exact .circular rfl ⟨.object id, reached, route.leads id passed⟩
      next fresh =>
        have each (key : Key) (listed : key ∈ object.exportedKeys) :
            heap.Settles (exportWithin engine depth (id :: path) (object.valueAt key))
              (heap.Projects (object.valueAt key)) (heap.ReachesCycle root) := by
          have holds := Holds.exported seen listed
          refine inductionHypothesis ?_ (route.step fresh seen holds) (reached.held holds)
          rw [List.length_cons]
          omega
        refine .bind_ok inspected ?_
        cases object with
        | string inner => exact .pure (.string seen)
        | map view => exact .pure (.map seen)
        | sequence view => exact .pure (.sequence seen)
        | array array => exact settles_array eager engine seen plain each
        | ordinary inner => exact settles_entries eager visits engine seen rfl plain each
        | function base => exact settles_entries eager visits engine seen rfl plain each

/-- Without lazy objects, a value of which all is there and nothing is an accessor is exported, and
the heap stays as it is.  The export fails exactly if something that the value holds lies on a
cycle; otherwise it gives the tree of the value. -/
theorem export_exact (eager : heap.Eager) (visits : 1 ≤ heap.policy.maxPrototypeDepth)
    {root : Value} (exportable : heap.Exportable root) {depth : Nat} (deep : heap.size < depth) :
    ∃ outcome, ((Command.toTree root).execute (.within depth)).on heap = some (outcome, heap) ∧
      ((outcome = .error (.typeMismatch .circular) ∧ heap.ReachesCycle root) ∨
        ∃ tree, outcome = .ok tree ∧ heap.Projects root tree ∧ ¬heap.ReachesCycle root) := by
  have within : (Engine.within depth).depth = depth := by cases depth <;> rfl
  rw [← within] at deep
  cases settles_exportWithin eager visits (.within depth) exportable deep (.start root) .root with
  | ended ran projects =>
    exact ⟨_, ran, .inr ⟨_, rfl, projects, projects.not_reachesCycle⟩⟩
  | circular ran isCyclic => exact ⟨_, ran, .inl ⟨rfl, isCyclic⟩⟩

/-- Objects that hold bare values only, and no objects but each other, can be exported. -/
theorem Exportable.of_closed {root : ObjectId} {closed : List ObjectId} (among : root ∈ closed)
    (each : ∀ id ∈ closed, ∃ object, heap.examine id = .ok object ∧ ∀ key ∈ object.exportedKeys,
      object.getOwn key = none ∨ ∃ value, object.getOwn key = some (.bare value) ∧
        ∀ next, value = .object next → next ∈ closed) : heap.Exportable (.object root) := by
  have inside : ∀ value, heap.Reaches (.object root) value → ∀ id, value = .object id →
      id ∈ closed := by
    intro value reached
    induction reached with
    | root => exact fun id same => Value.object.inj same ▸ among
    | held _ holds inductionHypothesis =>
      obtain ⟨seen, listed⟩ := holds
      obtain ⟨object, seenHere, properties⟩ := each _ (inductionHypothesis _ rfl)
      rw [seen] at seenHere
      cases seenHere
      intro id same
      unfold Object.valueAt at same
      rcases properties _ listed with absent | ⟨value, own, closes⟩
      · rw [absent] at same
        cases same
      · rw [own] at same
        exact closes id same
  intro id reached
  obtain ⟨object, seen, properties⟩ := each id (inside _ reached id rfl)
  refine ⟨object, seen, fun key listed slot own => ?_⟩
  rcases properties key listed with absent | ⟨value, bare, _⟩
  · rw [absent] at own
    cases own
  · rw [bare] at own
    cases own
    rfl

/-- A new heap in which the prototype of objects holds the one of arrays twice, which holds a value
behind a hole. -/
def sharing (element : Value) : Heap :=
  let shared : Slot := .bare (.object arrayPrototype)
  let base : OrdinaryObject := ((OrdinaryObject.new none).store .name shared).store sizeKey shared
  let array : ArrayObject := { ArrayObject.new (some objectPrototype) {} with
    elements := .dense [none, some (.bare element)] 2, length := 2, elementCount := 1 }
  { new {} with
    cells := ((new {}).cells.set 0 (.new (.ordinary base))).set 2 (.new (.array array)) }

theorem exportable_sharing {element : Value}
    (inside : ∀ id, element = .object id → id = objectPrototype) :
    (sharing element).Exportable (.object objectPrototype) := by
  have among : objectPrototype ∈ [objectPrototype, arrayPrototype] := List.mem_cons_self
  refine .of_closed among fun id member => ?_
  have cases : id = objectPrototype ∨ id = arrayPrototype := by simpa using member
  rcases cases with rfl | rfl
  · refine ⟨_, rfl, fun key listed => .inr ?_⟩
    have keys : key ∈ [Key.name, sizeKey] := listed
    have own : key = .name ∨ key = sizeKey := by simpa using keys
    have closes : ∀ next, Value.object arrayPrototype = .object next →
        next ∈ [objectPrototype, arrayPrototype] := by
      rintro _ ⟨⟩
      exact List.mem_cons_of_mem _ List.mem_cons_self
    rcases own with rfl | rfl <;> exact ⟨_, rfl, closes⟩
  · refine ⟨_, rfl, fun key listed => ?_⟩
    have keys : key ∈ [Key.index 0, .index 1] := listed
    have own : key = .index 0 ∨ key = .index 1 := by simpa using keys
    rcases own with rfl | rfl
    · exact .inl rfl
    · exact .inr ⟨element, rfl, fun next same => inside next same ▸ List.mem_cons_self⟩

/-- What is held twice is exported twice, unless it holds what it is held by. -/
theorem export_exact_sharing :
    let list := Tree.list [.null, .boolean true]
    let tree := Tree.map [("name", list), ("size", list)]
    (((Command.toTree (.object objectPrototype)).execute (.within 5)).on (sharing (.boolean true)) =
          some (.ok tree, sharing (.boolean true)) ∧
        (sharing (.boolean true)).Projects (.object objectPrototype) tree) ∧
      (sharing (.object objectPrototype)).ReachesCycle (.object objectPrototype) := by
  intro list tree
  have eager (element : Value) : (sharing element).Eager := by
    rintro ⟨_ | _ | _ | _ | index⟩ cell found <;> cases found <;> rfl
  have visits (element : Value) : 1 ≤ (sharing element).policy.maxPrototypeDepth :=
    (by decide : 1 ≤ ({} : Policy).maxPrototypeDepth)
  have deep (element : Value) : (sharing element).size < 5 := Nat.lt_succ_self 4
  constructor
  · obtain ⟨outcome, ran, ended⟩ := export_exact (eager (.boolean true)) (visits _)
      (exportable_sharing nofun) (deep _)
    have exported : ((Command.toTree (.object objectPrototype)).execute (.within 5)).on
        (sharing (.boolean true)) = some (.ok tree, sharing (.boolean true)) := rfl
    rw [exported] at ran
    cases ran
    rcases ended with ⟨⟨⟩, _⟩ | ⟨_, ⟨⟩, projects, _⟩
    exact ⟨exported, projects⟩
  · obtain ⟨outcome, ran, ended⟩ := export_exact (eager (.object objectPrototype)) (visits _)
      (exportable_sharing fun _ same => (Value.object.inj same).symm) (deep _)
    have failed : ((Command.toTree (.object objectPrototype)).execute (.within 5)).on
          (sharing (.object objectPrototype)) =
        some (.error (.typeMismatch .circular), sharing (.object objectPrototype)) := rfl
    rw [failed] at ran
    cases ran
    rcases ended with ⟨_, isCyclic⟩ | ⟨_, ⟨⟩, _⟩
    exact isCyclic

end Heap

end ObjectModel
