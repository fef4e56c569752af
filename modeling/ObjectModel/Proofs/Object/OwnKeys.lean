import ObjectModel.Proofs.Object.Mutation
import ObjectModel.Proofs.Table.Ordered

/-!
# The own keys of an object

An object has elements and a length by its kind, and further properties in a store of their own.  If
that store holds no key that the kind reserves, the list of the own keys is exact: it has each key
once, tells what is found there, and is ordered.
-/

namespace ObjectModel

namespace Key

/-- Whether arrays and sequences keep what is at a key themselves. -/
def isSpecial : Key → Bool
  | .index _ => true
  | .named text => (Key.named text).isLength

theorem eq_length {key : Key} (isLength : key.isLength = true) : key = .length := by
  cases key with
  | index i => cases isLength
  | named text =>
    obtain ⟨encoding, canonical⟩ := text
    have bytes := eq_of_beq isLength
    cases encoding with
    | narrow stored =>
      cases bytes
      rfl
    | wide units => cases bytes

end Key

theorem OrdinaryObject.mem_ownKeys (object : OrdinaryObject) (key : Key) (enumerable : Bool) :
    (key, enumerable) ∈ object.ownKeys ↔
      ∃ slot, object.getOwn key = some slot ∧ slot.isEnumerable = enumerable := by
  simp only [ownKeys, getOwn, OrderedMap.get?_eq_some_iff, List.mem_map, Prod.mk.injEq, Prod.exists]
  constructor
  · rintro ⟨_, slot, member, rfl, flag⟩
    exact ⟨slot, member, flag⟩
  · rintro ⟨slot, member, flag⟩
    exact ⟨key, slot, member, rfl, flag⟩

theorem index_ofNat_eq_iff {position : Nat} (below : position < UInt32.size) (i : UInt32) :
    Key.index (UInt32.ofNat position) = .index i ↔ position = i.toNat := by
  constructor
  · intro same
    rw [← Key.index.inj same, UInt32.toNat_ofNat_of_lt' below]
  · intro same
    rw [same, UInt32.ofNat_toNat]

/-- The keys of all positions below a bound, in order; positions beyond the indices repeat them. -/
theorem mem_range_keys (bound : Nat) (i : UInt32) (enumerable : Bool) :
    (Key.index i, enumerable) ∈
        (List.range bound).map (fun position => (Key.index (UInt32.ofNat position), true)) ↔
      i.toNat < bound ∧ enumerable = true := by
  simp only [List.mem_map, List.mem_range, Prod.mk.injEq]
  constructor
  · rintro ⟨position, below, same, flag⟩
    have least : i.toNat ≤ position := by
      rw [← Key.index.inj same, UInt32.toNat_ofNat']
      exact Nat.mod_le position _
    exact ⟨Nat.lt_of_le_of_lt least below, flag.symm⟩
  · rintro ⟨below, flag⟩
    exact ⟨i.toNat, below, by rw [UInt32.ofNat_toNat], flag.symm⟩

theorem Text.isSome_charAt?_iff (text : Text) (position : Nat) :
    (text.charAt? position).isSome = true ↔ position < text.length := by
  obtain ⟨encoding, canonical⟩ := text
  have found : (encoding.charAt? position).isSome = true ↔ position < encoding.length := by
    cases encoding <;> simp [Encoding.charAt?, Encoding.length]
  unfold charAt? length
  split
  next piece located =>
    rw [located] at found
    exact found
  next missing =>
    rw [missing] at found
    exact found

namespace Object

def isMap : Object → Bool
  | .map _ => true
  | _ => false

/-- Whether an object has a property `length` by its kind. -/
def hasLength : Object → Bool
  | .array _ | .string _ | .sequence _ => true
  | .ordinary _ | .map _ | .function _ => false

/-- The indices of the elements that an object has by its kind. -/
def indices : Object → List Nat
  | .array inner => inner.elements.entries.map Prod.fst
  | .string inner => List.range inner.value.length
  | .sequence view => List.range view.items.length
  | .ordinary _ | .map _ | .function _ => []

/-- Whether all elements have indices that are keys, as all elements of an array have. -/
def Short : Object → Prop
  | .string inner => inner.value.length < UInt32.size
  | .sequence view => view.items.length < UInt32.size
  | .ordinary _ | .array _ | .map _ | .function _ => True

/-- Whether an object keeps what is at a key by its kind. -/
def reserves : Object → Key → Bool
  | .array _, key | .sequence _, key => key.isSpecial
  | .string inner, key => (inner.fixed? key).isSome
  | .ordinary _, _ | .map _, _ | .function _, _ => false

/-- The keys of the properties that an object does not have by its kind. -/
def furtherKeys (object : Object) : List Key := object.base.properties.keys

/-- Whether no further property has a key that the kind of the object reserves. -/
structure Tidy (object : Object) : Prop where
  wellFormed : object.WellFormed
  apart : ∀ key ∈ object.furtherKeys, object.reserves key = false

/-- Whether the own keys of an object are listed exactly. -/
structure KeysExact (object : Object) : Prop where
  nodup : (object.ownKeys.map Prod.fst).Nodup
  listed : ∀ key enumerable, (key, enumerable) ∈ object.ownKeys ↔
    ∃ slot, object.getOwn key = some slot ∧ slot.isEnumerable = enumerable
  ascending : object.indices.Pairwise (· < ·)
  below : ∀ index ∈ object.indices, index < UInt32.size
  order : object.ownKeys.map Prod.fst =
    object.indices.map (fun index => Key.index (UInt32.ofNat index)) ++
      (if object.hasLength then [Key.length] else []) ++ object.furtherKeys

/-- The own keys that an object has by its kind. -/
def reservedKeys : Object → List (Key × Bool)
  | .array inner =>
    inner.elements.entries.map (fun entry =>
      (Key.index (UInt32.ofNat entry.1), entry.2.isEnumerable)) ++ [(Key.length, false)]
  | .string inner =>
    (List.range inner.value.length).map (fun i => (Key.index (UInt32.ofNat i), true)) ++
      [(Key.length, false)]
  | .sequence view =>
    (List.range view.items.length).map (fun i => (Key.index (UInt32.ofNat i), true)) ++
      [(Key.length, false)]
  | .ordinary _ | .map _ | .function _ => []

variable {object : Object}

theorem ownKeys_eq (notMap : object.isMap = false) :
    object.ownKeys = object.reservedKeys ++ object.base.ownKeys := by
  cases object
  case map view => cases notMap
  case array inner => exact (List.append_cons _ _ _)
  case string inner => exact (List.append_cons _ _ _)
  case sequence view => exact (List.append_cons _ _ _)
  all_goals rfl

theorem map_fst_reservedKeys (object : Object) :
    object.reservedKeys.map Prod.fst =
      object.indices.map (fun index => Key.index (UInt32.ofNat index)) ++
        (if object.hasLength then [Key.length] else []) := by
  cases object <;> simp [reservedKeys, indices, hasLength, Function.comp_def]

theorem getOwn_of_unreserved (notMap : object.isMap = false) {key : Key}
    (unreserved : object.reserves key = false) : object.getOwn key = object.base.getOwn key := by
  cases object
  case ordinary inner => rfl
  case function base => rfl
  case map view => cases notMap
  case string inner =>
    have missing : inner.fixed? key = none := by simpa [reserves] using unreserved
    change (inner.fixed? key).or (inner.base.getOwn key) = inner.base.getOwn key
    rw [missing, Option.none_or]
  case array inner =>
    cases key with
    | index i => cases unreserved
    | named text =>
      have notLength : (Key.named text).isLength = false := unreserved
      simp only [getOwn, ArrayObject.getOwn, notLength]
      rfl
  case sequence view =>
    cases key with
    | index i => cases unreserved
    | named text =>
      have notLength : (Key.named text).isLength = false := unreserved
      simp only [getOwn, HostSequence.getOwn, notLength]
      rfl

theorem ascending_indices (object : Object) : object.indices.Pairwise (· < ·) := by
  cases object
  case array inner =>
    have ascending := inner.elements.toSparse.ascending
    rw [Elements.entries_toSparse] at ascending
    exact List.pairwise_map.mpr ascending
  case string inner => exact List.pairwise_lt_range
  case sequence view => exact List.pairwise_lt_range
  all_goals exact .nil

theorem indices_below (wellFormed : object.WellFormed) (short : object.Short) :
    ∀ index ∈ object.indices, index < UInt32.size := by
  intro index member
  cases object
  case array inner =>
    obtain ⟨entry, stored, rfl⟩ := List.mem_map.mp member
    rw [← Elements.entries_toSparse] at stored
    have inside : entry.1 < inner.length := wellFormed.within.lt_of_mem stored
    have possible : inner.length < UInt32.size := Nat.lt_succ_of_le wellFormed.length_le
    exact Nat.lt_trans inside possible
  case string inner => exact Nat.lt_trans (List.mem_range.mp member) short
  case sequence view => exact Nat.lt_trans (List.mem_range.mp member) short
  all_goals cases member

theorem length_mem_append {elements : List (Key × Bool)}
    (indexed : ∀ entry ∈ elements, ∃ i, entry.1 = .index i) (enumerable : Bool) :
    (Key.length, enumerable) ∈ elements ++ [(Key.length, false)] ↔ enumerable = false := by
  constructor
  · intro member
    rcases List.mem_append.mp member with early | last
    · obtain ⟨i, same⟩ := indexed _ early
      cases same
    · exact (Prod.mk.inj (List.mem_singleton.mp last)).2
  · rintro rfl
    exact List.mem_append_right _ List.mem_cons_self

theorem index_mem_append {elements : List (Key × Bool)} (i : UInt32) (enumerable : Bool) :
    (Key.index i, enumerable) ∈ elements ++ [(Key.length, false)] ↔
      (Key.index i, enumerable) ∈ elements := by
  constructor
  · intro member
    rcases List.mem_append.mp member with early | last
    · exact early
    · cases List.mem_singleton.mp last
  · exact List.mem_append_left _

theorem indexed_map {α : Type} {position : α → Nat} {flag : α → Bool} {members : List α} :
    ∀ entry ∈ members.map (fun a => (Key.index (UInt32.ofNat (position a)), flag a)),
      ∃ i, entry.1 = .index i := by
  intro entry member
  obtain ⟨_, _, rfl⟩ := List.mem_map.mp member
  exact ⟨_, rfl⟩

theorem eq_enumerable_iff (slot : Slot) (enumerable : Bool) :
    enumerable = slot.isEnumerable ↔
      ∃ found, some slot = some found ∧ found.isEnumerable = enumerable := by
  simp [eq_comm]

theorem isLength_of_reserves {text : Text} (reserved : object.reserves (.named text) = true) :
    (Key.named text).isLength = true := by
  cases object
  case array => exact reserved
  case sequence => exact reserved
  case string inner =>
    cases isLength : (Key.named text).isLength with
    | true => rfl
    | false => simp [reserves, StringObject.fixed?, isLength] at reserved
  all_goals cases reserved

theorem mem_reservedKeys (wellFormed : object.WellFormed) {key : Key}
    (reserved : object.reserves key = true) (enumerable : Bool) :
    (key, enumerable) ∈ object.reservedKeys ↔
      ∃ slot, object.getOwn key = some slot ∧ slot.isEnumerable = enumerable := by
  cases object
  case array inner =>
    cases key with
    | index i =>
      have below : ∀ index ∈ (Object.array inner).indices, index < UInt32.size :=
        indices_below wellFormed trivial
      have found (slot : Slot) :
          inner.element? i.toNat = some slot ↔ (i.toNat, slot) ∈ inner.elements.entries := by
        rw [ArrayObject.element?, ← Elements.get?_toSparse, AscendingMap.get?_eq_some_iff,
          Elements.entries_toSparse]
      simp only [reservedKeys, index_mem_append, List.mem_map, Prod.mk.injEq, getOwn,
        ArrayObject.getOwn, found]
      constructor
      · rintro ⟨⟨position, slot⟩, member, same, flag⟩
        rw [index_ofNat_eq_iff (below position (List.mem_map_of_mem member))] at same
        exact ⟨slot, same ▸ member, flag⟩
      · rintro ⟨slot, member, flag⟩
        refine ⟨(i.toNat, slot), member, ?_, flag⟩
        exact (index_ofNat_eq_iff (below i.toNat (List.mem_map_of_mem member)) i).mpr rfl
    | named text =>
      rw [Key.eq_length (isLength_of_reserves reserved)]
      exact (length_mem_append indexed_map enumerable).trans
        (eq_enumerable_iff inner.lengthSlot enumerable)
  case string inner =>
    cases key with
    | index i =>
      obtain ⟨slot, held⟩ := Option.isSome_iff_exists.mp reserved
      obtain ⟨unit, located, rfl⟩ := Option.map_eq_some_iff.mp held
      have inside : i.toNat < inner.value.length := by
        rw [← Text.isSome_charAt?_iff, located]
        rfl
      have found : (Object.string inner).getOwn (.index i) = some (.fixed (.text unit) true) := by
        change (inner.fixed? (.index i)).or _ = _
        rw [held]
        rfl
      simp only [reservedKeys, index_mem_append, mem_range_keys, inside,
        true_and, found]
      exact eq_enumerable_iff (.fixed (.text unit) true) enumerable
    | named text =>
      rw [Key.eq_length (isLength_of_reserves reserved)]
      exact (length_mem_append indexed_map enumerable).trans
        (eq_enumerable_iff (.fixed (.number (.ofNat inner.value.length)) false) enumerable)
  case sequence view =>
    cases key with
    | index i =>
      simp only [reservedKeys, index_mem_append, mem_range_keys, getOwn, HostSequence.getOwn]
      constructor
      · rintro ⟨inside, rfl⟩
        exact ⟨_, by rw [List.getElem?_eq_getElem inside]; rfl, rfl⟩
      · rintro ⟨slot, found, rfl⟩
        obtain ⟨item, located, rfl⟩ := Option.map_eq_some_iff.mp found
        exact ⟨(List.getElem?_eq_some_iff.mp located).1, rfl⟩
    | named text =>
      rw [Key.eq_length (isLength_of_reserves reserved)]
      exact (length_mem_append indexed_map enumerable).trans
        (eq_enumerable_iff (.described (.data (.number (.ofNat view.items.length))
          ⟨view.resizable, false, false⟩)) enumerable)
  all_goals cases reserved

theorem reserves_of_mem {entry : Key × Bool} (member : entry ∈ object.reservedKeys) :
    object.reserves entry.1 = true := by
  cases object
  case array inner =>
    rcases List.mem_append.mp member with early | last
    · obtain ⟨i, same⟩ := indexed_map entry early
      rw [same]
      rfl
    · rw [List.mem_singleton.mp last]
      rfl
  case sequence view =>
    rcases List.mem_append.mp member with early | last
    · obtain ⟨i, same⟩ := indexed_map entry early
      rw [same]
      rfl
    · rw [List.mem_singleton.mp last]
      rfl
  case string inner =>
    rcases List.mem_append.mp member with early | last
    · obtain ⟨key, enumerable⟩ := entry
      obtain ⟨i, rfl⟩ : ∃ i, key = .index i := indexed_map (key, enumerable) early
      have inside := ((mem_range_keys _ i enumerable).mp early).1
      rw [← Text.isSome_charAt?_iff] at inside
      exact Option.isSome_map.trans inside
    · rw [List.mem_singleton.mp last]
      rfl
  all_goals cases member

theorem map_fst_ownKeys_base (object : Object) :
    object.base.ownKeys.map Prod.fst = object.furtherKeys := by
  simp [OrdinaryObject.ownKeys, furtherKeys, OrderedMap.keys, Function.comp_def]

theorem nodup_reservedKeys (wellFormed : object.WellFormed) (short : object.Short) :
    (object.reservedKeys.map Prod.fst).Nodup := by
  rw [map_fst_reservedKeys, List.nodup_append]
  refine ⟨?_, ?_, ?_⟩
  · have below := indices_below wellFormed short
    refine List.pairwise_map.mpr (object.ascending_indices.imp_of_mem ?_)
    intro first second memberFirst memberSecond less same
    rw [index_ofNat_eq_iff (below first memberFirst),
      UInt32.toNat_ofNat_of_lt' (below second memberSecond)] at same
    exact Nat.ne_of_lt less same
  · cases object.hasLength <;> simp
  · intro early memberEarly last memberLast
    obtain ⟨index, _, rfl⟩ := List.mem_map.mp memberEarly
    cases hasLength : object.hasLength with
    | true =>
      rw [hasLength] at memberLast
      rw [List.mem_singleton.mp memberLast]
      exact nofun
    | false =>
      rw [hasLength] at memberLast
      cases memberLast

/-- The own keys of a tidy object are listed exactly. -/
theorem Tidy.keysExact (tidy : object.Tidy) (notMap : object.isMap = false)
    (short : object.Short) : object.KeysExact := by
  have apart : ∀ entry ∈ object.reservedKeys, entry.1 ∉ object.furtherKeys := by
    intro entry member further
    have reserved := reserves_of_mem member
    rw [tidy.apart entry.1 further] at reserved
    cases reserved
  constructor
  case nodup =>
    rw [ownKeys_eq notMap, List.map_append, map_fst_ownKeys_base, List.nodup_append]
    refine ⟨nodup_reservedKeys tidy.wellFormed short, object.base.properties.nodup, ?_⟩
    rintro early memberEarly last memberLast rfl
    obtain ⟨entry, member, rfl⟩ := List.mem_map.mp memberEarly
    exact apart entry member memberLast
  case listed =>
    intro key enumerable
    rw [ownKeys_eq notMap, List.mem_append]
    cases reserved : object.reserves key with
    | true =>
      have elsewhere : (key, enumerable) ∉ object.base.ownKeys := by
        intro member
        have further : key ∈ object.furtherKeys := by
          rw [← map_fst_ownKeys_base]
          exact List.mem_map_of_mem member
        rw [tidy.apart key further] at reserved
        cases reserved
      simp only [elsewhere, or_false, mem_reservedKeys tidy.wellFormed reserved]
    | false =>
      have elsewhere : (key, enumerable) ∉ object.reservedKeys := by
        intro member
        have contradiction := reserves_of_mem member
        rw [reserved] at contradiction
        cases contradiction
      simp only [elsewhere, false_or, OrdinaryObject.mem_ownKeys,
        getOwn_of_unreserved notMap reserved]
  case ascending => exact object.ascending_indices
  case below => exact indices_below tidy.wellFormed short
  case order =>
    rw [ownKeys_eq notMap, List.map_append, map_fst_reservedKeys, map_fst_ownKeys_base]

namespace Tidy

theorem of_new {prototype : Option ObjectId} (wellFormed : object.WellFormed)
    (bare : object.base = .new prototype) : object.Tidy where
  wellFormed := wellFormed
  apart key member := by
    rw [furtherKeys, bare] at member
    cases member

theorem array_new (prototype : Option ObjectId) (policy : Policy) :
    (Object.array (.new prototype policy)).Tidy :=
  of_new (ArrayObject.WellFormed.new prototype policy) rfl

theorem array_ofValues {values : List Value} {prototype : Option ObjectId} {policy : Policy}
    {array : ArrayObject} (built : ArrayObject.ofValues values prototype policy = .ok array) :
    (Object.array array).Tidy := by
  have wellFormed := ArrayObject.WellFormed.ofValues built
  simp only [ArrayObject.ofValues] at built
  split at built
  next =>
    cases built
    exact of_new wellFormed rfl
  next => cases built

theorem array_ofLength {length : Nat} {prototype : Option ObjectId} {policy : Policy}
    {array : ArrayObject} (built : ArrayObject.ofLength length prototype policy = .ok array) :
    (Object.array array).Tidy := by
  have wellFormed := ArrayObject.WellFormed.ofLength built
  simp only [ArrayObject.ofLength] at built
  split at built
  next =>
    cases built
    exact of_new wellFormed rfl
  next => cases built

theorem string_new (value : Text) (prototype : Option ObjectId) :
    (Object.string (.new value prototype)).Tidy := of_new trivial rfl

end Tidy

end Object

end ObjectModel
