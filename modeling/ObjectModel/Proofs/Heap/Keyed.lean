import ObjectModel.Proofs.Heap.Invariant
import ObjectModel.Proofs.Host.Map

/-!
# Keys of views on maps

Views come without properties of their own.  What they get beside their entries is at keys that
denote no host keys, so entries and further properties never meet, whoever changes the map: the
view, another view on it, or the host.
-/

namespace ObjectModel

namespace Object

variable {object next : Object} {discipline : Discipline}

/-- Whether a key denotes an entry of the map that an object shows. -/
def denotes : Object → Key → Bool
  | @Object.map keyType _ _, key => (keyType.ofKey? key).isSome
  | _, _ => false

/-- Whether no further property has a key that denotes an entry. -/
def Apart (object : Object) : Prop := ∀ key ∈ object.furtherKeys, object.denotes key = false

theorem Becomes.denotes (becomes : object.Becomes discipline next) :
    next.denotes = object.denotes := by
  cases becomes with
  | mutated done => cases mutates_of_mutate done <;> rfl
  | linked => cases object <;> rfl
  | closed => cases object <;> rfl
  | resized _ done => cases object <;> cases done <;> rfl
  | swapped done => cases object <;> cases done <;> rfl

/-- A further property that is new is at a key that denotes no entry. -/
theorem Becomes.mem_furtherKeys (becomes : object.Becomes discipline next) {key : Key}
    (member : key ∈ next.furtherKeys) :
    key ∈ object.furtherKeys ∨ object.denotes key = false := by
  cases becomes with
  | mutated done =>
    cases mutates_of_mutate done with
    | map mutated => exact (HostMap.rebases_unless_denotes mutated).mem member
    | _ => exact .inr rfl
  | linked => cases object <;> exact .inl member
  | closed => cases object <;> exact .inl member
  | resized _ done => cases object <;> cases done <;> first | exact .inr rfl | exact .inl member
  | swapped done => cases object <;> cases done <;> first | exact .inr rfl | exact .inl member

/-- Views keep their further properties apart from their entries. -/
def apartness : Invariant where
  holds := Apart
  changes apart changes :=
    changes.keeps Apart apart fun becomes key member => by
      rw [becomes.denotes]
      exact (becomes.mem_furtherKeys member).elim (apart key) id
  shared apart same := by cases same <;> exact apart

end Object

namespace Heap

variable {heap : Heap}

/-- Whether every view on a map is readable. -/
def KeysReadable (heap : Heap) : Prop :=
  ∀ (id : ObjectId) (keyType : KeyType) (elementType : ElementType)
    (view : HostMap keyType elementType), heap.object? id = some (.map view) → view.Readable

theorem Upholds.keysReadable (upholds : heap.Upholds Object.apartness) : heap.KeysReadable := by
  intro id keyType elementType view seen
  have further : view.Apart := fun key member => Option.isNone_iff_eq_none.mp
    (Option.isSome_eq_false_iff.mp (upholds.holds seen key member))
  exact further.readable

theorem upholds_apartness_new (policy : Policy) : (new policy).Upholds Object.apartness :=
  .new (fun _ _ => nofun) (fun _ _ => nofun) (fun _ _ => nofun)

/-- The property key that shows a host key denotes it, unless the host key strays.  So in new heaps,
and in all heaps that runs of code lead to that builds views without further properties, every view
on a map is readable. -/
theorem keys_of_maps_readable (upholds : heap.Upholds Object.apartness) :
    (∀ (keyType : KeyType) hostKey,
        keyType.ofKey? (keyType.toKey hostKey) = some hostKey ↔ ¬keyType.Strays hostKey) ∧
      (∀ policy, (new policy).Upholds Object.apartness) ∧ heap.KeysReadable ∧
      ∀ {depth goal} {code : Code goal} {outcome after},
        code.Obeys (.upholding Object.apartness) →
          (code.run depth).on heap = some (outcome, after) →
            after.Upholds Object.apartness ∧ after.KeysReadable := by
  refine ⟨fun _ _ => KeyType.ofKey?_toKey_iff, upholds_apartness_new, upholds.keysReadable, ?_⟩
  intro depth goal code outcome after obeys ran
  have upholdsAfter := upholds.run obeys ran
  exact ⟨upholdsAfter, upholdsAfter.keysReadable⟩

/-- Code that shares a collection, shows it by an object and puts a property to that. -/
def showing (collection : Collection) (key : Key) : Code (.reply .handle) :=
  .ask (.share collection none) fun source =>
    .ask (.allocate (.host ⟨source, true, .new none⟩)) fun id =>
      .ask (.put id key .null true) fun _ => .give id

theorem showing_obeys (collection : Collection) (key : Key) :
    (showing collection key).Obeys (.upholding Object.apartness) := by
  refine ⟨trivial, fun shared => ?_⟩
  cases shared with
  | error fault => trivial
  | ok source =>
    have fresh : Representation.Upholds Object.apartness (.host ⟨source, true, .new none⟩) := by
      intro heap object viewed further member
      obtain ⟨shared, _, rfl⟩ := Option.map_eq_some_iff.mp viewed
      cases shared <;> cases member
    refine ⟨⟨trivial, fresh⟩, fun allocated => ?_⟩
    cases allocated with
    | error fault => trivial
    | ok id => exact ⟨trivial, fun put => by cases put <;> trivial⟩

/-- A view on a map from one integer of 64 bits, with a further property. -/
def debts : HostMap .int64 (.plain .boolean) where
  entries := .insert .empty (-5 : Int64) true
  growable := true
  base := (OrdinaryObject.new none).store .name (.bare .null)

/-- The entry is listed as its numeral, before the further property. -/
theorem keys_of_debts_readable :
    ∃ after, ((showing (.map debts.entries) .name).run 1).on (new {}) = some (.ok ⟨4⟩, after) ∧
      after.object? ⟨4⟩ = some (.map debts) ∧ (debts.ownKeys.map Prod.fst).Nodup ∧
      (∀ key ∈ debts.ownKeys.map Prod.fst, (debts.getOwn key).isSome = true) ∧
      debts.ownKeys.map Prod.fst = [.ofString "-5", .name] := by
  obtain ⟨after, ran, seen⟩ : ∃ after,
      ((showing (.map debts.entries) .name).run 1).on (new {}) = some (.ok ⟨4⟩, after) ∧
        after.object? ⟨4⟩ = some (.map debts) := ⟨_, rfl, rfl⟩
  obtain ⟨_, _, _, readableAfter⟩ := keys_of_maps_readable (upholds_apartness_new {})
  obtain ⟨_, readable⟩ := readableAfter (showing_obeys _ _) ran
  have debtsReadable := readable _ _ _ _ seen
  refine ⟨after, ran, seen, debtsReadable.nodup fun _ _ strays => strays, ?_, by decide⟩
  exact fun key member => debtsReadable.found key member fun _ strays => strays.elim

/-- A view on a map from the largest integer of 32 bits, with a further property at a key. -/
def strays (key : Key) : HostMap .uint32 (.plain .boolean) where
  entries := .insert .empty (0xFFFFFFFF : UInt32) true
  growable := true
  base := (OrdinaryObject.new none).store key (.bare .null)

/-- An entry with a host key that strays may be listed where nothing is found, and may be listed at
the key of a further property. -/
theorem keys_of_strays_unreadable :
    (∃ after, ((showing (.map (strays .name).entries) .name).run 1).on (new {}) =
          some (.ok ⟨4⟩, after) ∧
        after.object? ⟨4⟩ = some (.map (strays .name)) ∧
        ∃ key ∈ (strays .name).ownKeys.map Prod.fst, (strays .name).getOwn key = none) ∧
      ∃ key after, ((showing (.map (strays key).entries) key).run 1).on (new {}) =
          some (.ok ⟨4⟩, after) ∧
        after.object? ⟨4⟩ = some (.map (strays key)) ∧
        ¬((strays key).ownKeys.map Prod.fst).Nodup := by
  constructor
  · exact ⟨_, rfl, rfl, .ofString "4294967295", by decide, by decide⟩
  · exact ⟨.ofString "4294967295", _, rfl, rfl, by decide⟩

end Heap

end ObjectModel
