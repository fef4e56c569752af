import ObjectModel.Proofs.Heap.Invariant
import ObjectModel.Proofs.Object.Canonical

/-!
# Heaps of canonical objects

Whatever code runs that builds only canonical objects, all objects stay canonical.  Those that the
constructors build are, and so is what any command makes of them.
-/

namespace ObjectModel

namespace Object

variable {object next : Object}

namespace Canonical

theorem resize (canonical : object.Canonical) {length : Nat} {verdict : Option Verdict}
    (possible : length ≤ maxArrayLength) (done : object.resize length = .ok (verdict, next)) :
    next.Canonical := by
  cases object with
  | array inner =>
    have same : next = .array (inner.setLength length).2 :=
      (congrArg Prod.snd (Except.ok.inj done)).symm
    rw [same]
    refine ⟨canonical.wellFormed.setLength possible, ?_, ?_⟩
    · rw [inner.base_setLength length]
      exact canonical.base
    · exact ArrayObject.canonical_setLength canonical.elements length
  | _ =>
    cases done
    exact canonical

theorem exchangeStored (canonical : object.Canonical) {a b : UInt32} {swapped : Bool}
    (done : Heap.exchangeStored a b object = .ok (swapped, next)) : next.Canonical := by
  cases object with
  | array inner =>
    cases done
    exact ⟨canonical.wellFormed.sortSwap a.toNat b.toNat, canonical.base,
      canonical.elements.sortSwap a.toNat b.toNat⟩
  | _ =>
    cases done
    exact canonical

theorem changes (canonical : object.Canonical) (changes : object.Changes .fitting next) :
    next.Canonical := by
  apply changes.keeps Canonical canonical
  intro becomes
  cases becomes with
  | mutated done => exact canonical.mutate done
  | linked prototype => exact canonical.setPrototype prototype
  | closed => exact canonical.preventExtensions
  | resized permitted done => exact canonical.resize permitted done
  | swapped done => exact canonical.exchangeStored done

end Canonical

def canonicity : Invariant where
  holds := Canonical
  changes := Canonical.changes
  shared canonical same := by
    cases same with
    | map => exact canonical
    | sequence => exact canonical

/-- The objects that the constructors build, and what commands make of them. -/
inductive Built : Object → Prop
  | ordinary (prototype : Option ObjectId) : Built (.ordinary (.new prototype))
  | function (name : String) (prototype : Option ObjectId) :
      Built (.function (.ofFunction name prototype))
  | array {origin : ArrayOrigin} {prototype : Option ObjectId} {policy : Policy}
      {array : ArrayObject} (built : origin.build prototype policy = .ok array) :
      Built (.array array)
  | string (value : Text) (prototype : Option ObjectId) : Built (.string (.new value prototype))
  | view (collection : Collection) (source : CollectionId) (growable : Bool)
      (prototype : Option ObjectId) :
      Built (HostView.showing ⟨source, growable, .new prototype⟩ collection)
  | changed {object next : Object} (built : Built object) (changes : object.Changes .fitting next) :
      Built next

theorem Built.canonical (built : object.Built) : object.Canonical := by
  induction built with
  | ordinary prototype => exact OrdinaryObject.Canonical.new prototype
  | function name prototype => exact OrdinaryObject.Canonical.ofFunction name prototype
  | array built => exact ArrayObject.Canonical.build built
  | string value prototype => exact OrdinaryObject.Canonical.new prototype
  | view collection source growable prototype =>
    cases collection <;> exact OrdinaryObject.Canonical.new prototype
  | changed built changes inductionHypothesis => exact inductionHypothesis.changes changes

end Object

namespace Heap

theorem upholds_canonicity_new (policy : Policy) : (new policy).Upholds Object.canonicity := by
  apply Upholds.new
  case ordinary => exact fun prototype => (Object.Built.ordinary prototype).canonical
  case array =>
    intro prototype
    have built : ArrayOrigin.empty.build prototype policy = .ok (.new prototype policy) := rfl
    exact (Object.Built.array built).canonical
  case string => exact fun prototype => (Object.Built.string .empty prototype).canonical

end Heap

end ObjectModel
