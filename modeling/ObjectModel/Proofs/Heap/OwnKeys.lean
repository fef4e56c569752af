import ObjectModel.Proofs.Heap.Guarded
import ObjectModel.Proofs.Heap.Tidying

/-!
# Own keys over any run

Tidy heaps stay tidy whatever tidy code runs on them, so the own keys of every object stay exact;
and the order of the further keys is that of their insertion, for no command moves a key that it
does not delete.
-/

namespace ObjectModel

namespace Object

variable {object next : Object} {spared : Key → Prop}

theorem rearranges_resize {length : Nat} (possible : length ≤ maxArrayLength)
    {verdict : Option Verdict} (done : object.resize length = .ok (verdict, next)) :
    object.Rearranges spared next := by
  cases object
  case array inner =>
    have same : next = .array (inner.setLength length).2 :=
      (congrArg Prod.snd (Except.ok.inj done)).symm
    rw [same]
    apply Rearranges.of_furtherKeys
    case wellFormed => exact fun wellFormed => ArrayObject.WellFormed.setLength wellFormed possible
    case same => exact congrArg OrdinaryObject.keys (inner.base_setLength length)
    all_goals rfl
  all_goals
    cases done
    exact .refl _ _

theorem rearranges_swapStored {a b : UInt32} {swapped : Bool}
    (done : Heap.exchangeStored a b object = .ok (swapped, next)) :
    object.Rearranges spared next := by
  cases object
  case array inner =>
    cases done
    apply Rearranges.of_furtherKeys
    case wellFormed =>
      exact fun wellFormed => ArrayObject.WellFormed.sortSwap wellFormed a.toNat b.toNat
    all_goals rfl
  all_goals
    cases done
    exact .refl _ _

end Object

theorem OwnMutation.Fits.of_special {mutation : OwnMutation} (fits : mutation.Fits Key.isSpecial)
    (reserved : Key → Bool) : mutation.Fits reserved := by
  cases mutation with
  | add key value =>
    intro isLength
    have unreserved := fits isLength
    rw [Key.eq_length isLength] at unreserved
    cases unreserved
  | _ => trivial

def Command.deletes (id : ObjectId) (key : Key) : {reply : Reply} → Command reply → Bool
  | _, .delete target gone _ => target = id ∧ gone = key
  | _, .mutate target (.delete gone) _ => target = id ∧ gone = key
  | _, _ => false

def Command.leaves (id : ObjectId) (key : Key) (_ : Heap) {reply : Reply}
    (command : Command reply) : Bool :=
  !command.deletes id key

namespace Heap

namespace Tidying

section Commands

variable {heap : Heap} {id : ObjectId} {object : Object} {spared : ObjectId → Key → Prop}
  {watched : Engine} {depth : Nat}
  (follows : watched.Follows (.within depth) .tidy (tidying spared))

include follows

theorem serves : (tidying spared).Serves watched (.within depth) :=
  (enters_tidying spared).serves follows

theorem carries_change {α : Type} (id : ObjectId) {change : Object → Except Fault (α × Object)}
    (rearranges : ∀ {object result next}, change object = .ok (result, next) →
      object.Rearranges (spared id) next) :
    (tidying spared).Carries (judge watched id change) (judge (.within depth) id change) := by
  intro heap tidy
  apply (enters_tidying spared).carries_judge follows tidy
  intro mid reached cell object grasped result next changed
  exact Tidy.reaches_store reached.1 grasped (rearranges changed)

theorem carries_mutate (id : ObjectId) {mutation : OwnMutation}
    {change : Object → Except Fault (Verdict × Object)}
    (mutates : ∀ object, change object = object.mutate mutation)
    (fits : mutation.Fits Key.isSpecial)
    (spares : ∀ key, spared id key → mutation ≠ .delete key) :
    (tidying spared).Carries (judge watched id change) (judge (.within depth) id change) := by
  apply carries_change follows
  intro object verdict next done
  rw [mutates] at done
  exact (Object.rearranges_mutate (fits.of_special _) done).mono spares

/-- A length is only added to an object that has been seen to have none. -/
theorem carries_add (tidy : heap.Tidy) (seen : heap.object? id = some object) {key : Key}
    {value : Value} (fits : (OwnMutation.add key value).Fits object.reserves) :
    (tidying spared).CarriesFrom heap (judge watched id (·.add key value))
      (judge (.within depth) id (·.add key value)) := by
  apply (enters_tidying spared).carries_judge follows tidy
  intro mid reached cell held grasped verdict next added
  obtain ⟨found, viewed, _⟩ := of_grasp grasped
  obtain ⟨later, seenLater, rearranges⟩ := reached.2.objects id object seen
  rw [object?_of_found found, viewed] at seenLater
  cases seenLater
  rw [← rearranges.reserves] at fits
  exact Tidy.reaches_store reached.1 grasped
    ((Object.rearranges_mutate fits added).mono fun _ _ => nofun)

theorem carries_setPrototype (id : ObjectId) (prototype : Option ObjectId) :
    (tidying spared).Carries (judgePrototype watched id prototype)
      (judgePrototype (.within depth) id prototype) := by
  apply (serves follows).simulated.setPrototype
  apply carries_change follows
  intro object _ next done
  cases done
  exact object.rearranges_setPrototype prototype

theorem carries_putInherited (tidy : heap.Tidy) (seen : heap.object? id = some object) {key : Key}
    (absent : object.getOwn key = none) (value : Value) :
    (tidying spared).CarriesFrom heap (judgeInherited watched id key value)
      (judgeInherited (.within depth) id key value) := by
  have serves := serves follows
  apply (serves.simulated.inherited id key heap tidy).bind_reached
  intro found mid reached
  -- Asking the prototypes may have changed the object, but not what it reserves.
  have added : (tidying spared).CarriesFrom mid (judge watched id (·.add key value))
      (judge (.within depth) id (·.add key value)) := by
    obtain ⟨later, seenLater, rearranges⟩ := reached.2.objects id object seen
    apply carries_add follows reached.1 seenLater
    intro isLength
    rw [rearranges.reserves]
    exact Object.unreserved_of_getOwn absent isLength
  exact serves.carriesFrom_judgeUnder reached.1 added found

theorem carries_put (id : ObjectId) (key : Key) (value : Value) :
    (tidying spared).Carries (judgePut watched id key value)
      (judgePut (.within depth) id key value) := by
  intro heap tidy
  apply (enters_tidying spared).carries_constructs follows tidy
  case constructs => exact fun _ => Constructs.inspect.bind _
  case constructsPlain => exact fun _ => Constructs.inspect.bind _
  intro mid reached constructed
  apply (serves follows).carriesFrom_put reached.1 constructed.ready
  case written =>
    have written : ∀ object : Object, object.write key value = object.mutate (.write key value) :=
      fun _ => rfl
    exact carries_mutate follows id written trivial (fun _ _ => nofun) mid reached.1
  case linked => exact fun prototype => carries_setPrototype follows id prototype mid reached.1
  case inherited =>
    intro object examined absent
    exact carries_putInherited follows reached.1 (object?_of_examine examined) absent value

/-- A command keeps a heap tidy, and spared keys where they are, unless it deletes them. -/
theorem carries_execute {reply : Reply} (command : Command reply)
    (obeys : command.Obeys .tidy)
    (spares : ∀ id key, spared id key → command.deletes id key = false) :
    (tidying spared).Carries (command.execute watched) (command.execute (.within depth)) := by
  have serves := serves follows
  cases command
  case allocate representation =>
    intro heap tidy
    exact .of_on rfl rfl (Tidy.reaches_push tidy obeys.2)
  case size => exact (Regime.Keeps.get.bind fun _ => .pure _).carries
  case put id key value strict =>
    rw [Command.execute_put, Command.execute_put]
    exact (carries_put follows id key value).report strict
  case define id key request strict =>
    have defined : ∀ object : Object,
        object.define key request = object.mutate (.define key request) := fun _ => rfl
    rw [Command.execute_define, Command.execute_define]
    apply Regime.Carries.report
    apply (Regime.Keeps.ofExcept request.validate).carries.bind
    intro _
    exact carries_mutate follows id defined trivial fun _ _ => nofun
  case delete id key strict =>
    have deleted : ∀ object : Object, .ok (object.delete key) = object.mutate (.delete key) :=
      fun _ => rfl
    rw [Command.execute_delete, Command.execute_delete]
    apply Regime.Carries.report
    apply carries_mutate follows id deleted trivial
    rintro other isSpared same
    cases same
    simpa [Command.deletes] using spares id key isSpared
  case preventExtensions id =>
    have closed : (tidying spared).Carries
        (judge watched id fun object => .ok ((), object.preventExtensions))
        (judge (.within depth) id fun object => .ok ((), object.preventExtensions)) := by
      apply carries_change follows
      intro object _ next done
      cases done
      exact object.rearranges_preventExtensions
    simp only [Command.execute, preventExtensions_eq]
    exact closed.bind fun _ => .pure _
  case setPrototype id prototype strict =>
    rw [Command.execute_setPrototype, Command.execute_setPrototype]
    exact (carries_setPrototype follows id prototype).report strict
  case swap id a b =>
    apply serves.carries_swap
    case stores => exact carries_change follows id Object.rearranges_swapStored
    case puts => exact carries_put follows id
  case mutate id mutation strict =>
    rw [Command.execute_mutate, Command.execute_mutate]
    apply Regime.Carries.report
    apply carries_mutate follows id (fun _ => rfl) obeys
    rintro key isSpared rfl
    simpa [Command.deletes] using spares id key isSpared
  case relink id prototype =>
    rw [Command.execute_relink, Command.execute_relink]
    apply carries_change follows id
    intro object _ next done
    cases done
    exact object.rearranges_setPrototype prototype
  case resize id length strict =>
    exact (carries_change follows id (Object.rearranges_resize obeys)).resize strict
  case replace => cases obeys.1
  case share collection name =>
    have shared : (tidying spared).Keeps (Heap.share collection name) :=
      Regime.Keeps.share collection name fun tidy => Tidy.reaches_share tidy collection
    exact shared.carries
  case edit name edit =>
    have edited : (tidying spared).Keeps (Heap.edit name edit) := by
      apply Regime.Keeps.edit
      intro heap tidy source collection found
      exact Tidy.reaches_setCollection tidy found (collection.isMap_edit edit)
    exact edited.carries
  case hold id exclusive body =>
    exact (enters_tidying spared).carries_hold follows id exclusive obeys.2
  case note outcome =>
    exact (Regime.Keeps.modify fun _ tidy => Tidy.reaches_record tidy (.step outcome)).carries
  all_goals exact serves.carries_looking rfl

end Commands

theorem carries_unspared {watched : Engine} {depth : Nat}
    (follows : watched.Follows (.within depth) .tidy (tidying fun _ _ => False)) {reply : Reply}
    (command : Command reply) (obeys : command.Obeys .tidy) :
    (tidying fun _ _ => False).Carries (command.execute watched)
      (command.execute (.within depth)) :=
  carries_execute follows command obeys fun _ _ => False.elim

theorem respects_within (depth : Nat) :
    (Engine.within depth).Respects .tidy (tidying fun _ _ => False) :=
  Regime.respects_within carries_unspared depth

/-- A command that leaves a further key to an object keeps it in its place. -/
theorem carries_leaving {heap : Heap} {id : ObjectId} {key : Key} {watched : Engine} {depth : Nat}
    (follows : watched.Follows (.within depth) .tidy
      (tidying fun target spared => target = id ∧ spared = key))
    {reply : Reply} (command : Command reply) (obeys : command.Obeys .tidy) (tidy : heap.Tidy)
    (leaves : command.leaves id key heap = true) :
    (tidying fun target spared => target = id ∧ spared = key).CarriesFrom heap
      (command.execute watched) (command.execute (.within depth)) := by
  have spares : ∀ target spared, target = id ∧ spared = key →
      command.deletes target spared = false := by
    rintro _ _ ⟨rfl, rfl⟩
    rw [Command.leaves, Bool.not_eq_true'] at leaves
    exact leaves
  exact carries_execute follows command obeys spares heap tidy

end Tidying

/-- Whether the own keys of all objects but views on maps are listed exactly, as long as all their
elements have indices. -/
def KeysExact (heap : Heap) : Prop :=
  ∀ id object, heap.object? id = some object → object.isMap = false → object.Short →
    object.KeysExact

/-- Whether a further key of an object is where it was: all others come after it, unless they came
before it already. -/
def KeepsKey (id : ObjectId) (key : Key) (before after : Heap) : Prop :=
  ∀ object, before.object? id = some object → key ∈ object.furtherKeys →
    ∃ next, after.object? id = some next ∧ key ∈ next.furtherKeys ∧
      ∀ other ∈ next.furtherKeys, other ≠ key →
        [other, key].Sublist object.furtherKeys ∨ [key, other].Sublist next.furtherKeys

theorem Tidy.new (policy : Policy) : (Heap.new policy).Tidy := by
  constructor
  case steady => exact Steady.new policy
  case runs =>
    rintro ⟨_ | _ | _ | _ | index⟩ cell found <;> cases found <;> trivial
  case tidies =>
    rintro ⟨_ | _ | _ | _ | index⟩ cell found <;> cases found
    case succ.succ.zero.refl => exact .inl (.array_new _ policy)
    case succ.succ.succ.zero.refl => exact .inl (.string_new _ _)
    all_goals exact .inl trivial

theorem Tidy.keysExact {heap : Heap} (tidy : heap.Tidy) : heap.KeysExact := by
  intro id object seen notMap short
  obtain ⟨cell, found, viewed⟩ := Option.bind_eq_some_iff.mp seen
  exact ((tidy.tidies id cell found).of_view? viewed).keysExact notMap short

theorem Rearranges.keepsKey {spared : ObjectId → Key → Prop} {before after : Heap} {id : ObjectId}
    {key : Key} (rearranges : before.Rearranges spared after) (spares : spared id key) :
    before.KeepsKey id key after := by
  intro object seen member
  obtain ⟨next, seenNext, rearranged⟩ := rearranges.objects id object seen
  obtain ⟨memberNext, earlier⟩ := rearranged.places key spares member
  refine ⟨next, seenNext, memberNext, ?_⟩
  intro other memberOther apart
  rcases pair_sublist_of_mem memberOther memberNext apart with before | after
  · exact .inl (earlier other before)
  · exact .inr after

theorem Tidy.not_mem_of_on_delete {heap after : Heap} (tidy : heap.Tidy) {depth : Nat}
    {id : ObjectId} {key : Key}
    (ran : (Heap.judgeDelete (.within depth) id key).on heap = some (.ok .accepted, after)) :
    ∃ object, after.object? id = some object ∧
      (object.isMap = false → key ∉ object.furtherKeys) := by
  obtain ⟨mid, cell, object, next, constructing, grasped, deleted, rfl⟩ := exists_of_on_judge ran
  obtain ⟨found, viewed, _⟩ := of_grasp grasped
  have tidyMid : mid.Tidy := by
    have follows := Engine.Respects.follows (Tidying.respects_within depth)
    have constructs := (enters_tidying fun _ _ => False).carries_construct follows id
    exact (constructs heap tidy _ _ constructing).2.1
  have gone : object.mutate (.delete key) = .ok (.accepted, next) := deleted
  have fits : (OwnMutation.delete key).Fits object.reserves := trivial
  have rearranged := Object.rearranges_mutate fits gone
  obtain ⟨_, viewedNext⟩ := shows_store viewed rearranged.kind rearranged.isMap
  have stored := (cell?_store found next id).trans (if_pos rfl)
  refine ⟨next, (object?_of_found stored).trans viewedNext, ?_⟩
  intro notMap
  rw [rearranged.isMap] at notMap
  have tidyObject := (tidyMid.tidies id cell found).of_view? viewed
  exact Object.not_mem_furtherKeys_of_delete tidyObject notMap gone

/-- What holds of the own keys of the objects in a heap, whatever tidy code runs on it.

They are listed exactly ever after.  A further key keeps its place as long as no command is to
delete it; once it has been deleted it is gone, so if it is added again it comes last. -/
structure ListsKeys (heap : Heap) : Prop where
  listed : ∀ {depth goal} {code : Code goal} {outcome after}, code.Obeys .tidy →
    (code.run depth).on heap = some (outcome, after) → after.Tidy ∧ after.KeysExact
  kept : ∀ {depth goal} {code : Code goal} {outcome after}, code.Obeys .tidy → ∀ {id key},
    (code.runGuarded (Command.leaves id key) depth).on heap = some (outcome, after) →
      (code.run depth).on heap = some (outcome, after) ∧ heap.KeepsKey id key after
  deleted : ∀ {depth id key strict after},
    ((Command.delete id key strict).execute (.within depth)).on heap = some (.ok true, after) →
      ∃ object, after.object? id = some object ∧
        (object.isMap = false → key ∉ object.furtherKeys)

/-- New heaps are tidy, and every tidy heap lists the own keys of its objects. -/
theorem own_keys_exact :
    (∀ policy, (new policy).Tidy) ∧
      ∀ {heap : Heap}, heap.Tidy → heap.KeysExact ∧ heap.ListsKeys := by
  refine ⟨Tidy.new, fun {heap} tidy => ⟨tidy.keysExact, ?_⟩⟩
  constructor
  case listed =>
    intro depth goal code outcome after obeys ran
    have tidyAfter : after.Tidy :=
      (Regime.keeps_run Tidying.carries_unspared depth obeys heap tidy outcome after ran).1
    exact ⟨tidyAfter, tidyAfter.keysExact⟩
  case kept =>
    intro depth goal code outcome after obeys id key ran
    obtain ⟨ranPlain, _, rearranges⟩ :=
      Regime.carries_runGuarded (fun {_ _} follows {_} command obeys _ tidy leaves =>
        Tidying.carries_leaving follows command obeys tidy leaves)
        depth obeys heap tidy outcome after ran
    exact ⟨ranPlain, rearranges.keepsKey ⟨rfl, rfl⟩⟩
  case deleted =>
    intro depth id key strict after ran
    rw [Command.execute_delete] at ran
    exact tidy.not_mem_of_on_delete (on_eq_accepted_of_on_report ran)

/-- A new heap, but for the further properties of the prototype of arrays. -/
def withArrayProperties (keys : List Key) : Heap :=
  let base : OrdinaryObject := keys.foldl (·.store · (.bare .null)) (.new (some objectPrototype))
  { Heap.new {} with
    cells := (Heap.new {}).cells.set 2
      (.new (.array { ArrayObject.new (some objectPrototype) {} with base })) }

def performing (command : Command .flag) : Code (.reply .flag) := .ask command .give

theorem performing_obeys {command : Command .flag} (obeys : command.Obeys .tidy) :
    (performing command).Obeys .tidy := by
  refine ⟨obeys, fun outcome => ?_⟩
  cases outcome <;> trivial

/-- A key that is neither an index nor a length. -/
def sizeKey : Key := .named (.ofString "size")

/-- The older one of two properties is deleted and put again, so it comes last. -/
theorem own_keys_exact_renaming :
    let put (key : Key) := performing (.put arrayPrototype key .null true)
    let after := withArrayProperties [sizeKey, .name]
    (∃ object, (withArrayProperties [sizeKey]).object? arrayPrototype = some object ∧
        Key.name ∉ object.furtherKeys) ∧
      ((put .name).run 1).on (withArrayProperties [sizeKey]) = some (.ok true, after) ∧
      ∃ object, after.object? arrayPrototype = some object ∧ object.KeysExact ∧
        [sizeKey, .name].Sublist object.furtherKeys := by
  intro put after
  let delete : Command .flag := .delete arrayPrototype .name true
  have deleteObeys : delete.Obeys .tidy := trivial
  obtain ⟨tidyNew, lists⟩ := own_keys_exact
  have putObeys (key : Key) : (put key).Obeys .tidy := performing_obeys trivial
  have putName : ((put .name).run 1).on (Heap.new {}) =
      some (.ok true, withArrayProperties [.name]) := rfl
  have putSize : ((put sizeKey).run 1).on (withArrayProperties [.name]) =
      some (.ok true, withArrayProperties [.name, sizeKey]) := rfl
  have executed : (delete.execute (.within 1)).on (withArrayProperties [.name, sizeKey]) =
      some (.ok true, withArrayProperties [sizeKey]) := rfl
  have deleteName : ((performing delete).run 1).on (withArrayProperties [.name, sizeKey]) =
      some (.ok true, withArrayProperties [sizeKey]) := rfl
  have putAgain : ((put .name).runGuarded (Command.leaves arrayPrototype sizeKey) 1).on
      (withArrayProperties [sizeKey]) = some (.ok true, after) := rfl
  have tidy := ((lists (tidyNew {})).2.listed (putObeys .name) putName).1
  have tidySized := ((lists tidy).2.listed (putObeys sizeKey) putSize).1
  have tidyBare := ((lists tidySized).2.listed (performing_obeys deleteObeys) deleteName).1
  obtain ⟨object, seen, gone⟩ := (lists tidySized).2.deleted executed
  obtain ⟨ran, kept⟩ := (lists tidyBare).2.kept (putObeys .name) putAgain
  obtain ⟨next, seenNext, _, order⟩ := kept object seen (by cases seen; decide)
  refine ⟨⟨object, seen, gone (by cases seen; rfl)⟩, ran, next, seenNext, ?_, ?_⟩
  · exact ((lists tidyBare).2.listed (putObeys .name) ran).2 arrayPrototype next seenNext
      (by cases seenNext; rfl) (by cases seenNext; trivial)
  · refine (order .name (by cases seenNext; decide) (by decide)).resolve_left ?_
    cases seen
    decide

end Heap

end ObjectModel
