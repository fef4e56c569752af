import ObjectModel.Proofs.Heap.Invariant
import ObjectModel.Proofs.Heap.OwnKeys
import ObjectModel.Proofs.Object.Listing

/-!
# Heaps of sound objects

Commands keep objects sound, also those that add a property without looking whether its key is a
length, which tidy code does not use.
-/

namespace ObjectModel

namespace Object

/-- A view on a sequence stays sound whatever the host does, as soundness does not look at items. -/
def soundness : Invariant where
  holds := Sound
  changes {object _} sound changes := changes.keeps Sound sound fun becomes => by
    have rearranged {next : Object} (done : object.Rearranges (fun _ => True) next) : next.Sound :=
      done.sound sound
    cases becomes with
    | mutated done => exact sound.mutate done
    | linked prototype => exact rearranged (rearranges_setPrototype object prototype)
    | closed => exact rearranged (rearranges_preventExtensions object)
    | resized permitted done => exact rearranged (rearranges_resize permitted done)
    | swapped done => exact rearranged (rearranges_swapStored done)
  shared sound same := by
    cases same with
    | map => exact ⟨trivial, fun _ _ _ => rfl⟩
    | sequence => exact ⟨trivial, sound.unindexed⟩

end Object

namespace Heap

theorem upholds_soundness_new (policy : Policy) : (new policy).Upholds Object.soundness := by
  apply Upholds.new
  case ordinary => exact fun _ => ⟨trivial, fun _ _ _ => rfl⟩
  case array => exact fun prototype => (Object.Tidy.array_new prototype policy).sound
  case string => exact fun prototype => (Object.Tidy.string_new .empty prototype).sound

end Heap

end ObjectModel
