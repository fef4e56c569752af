/-!
How arrays choose their storage, and how far prototype chains are followed.
-/

namespace ObjectModel

/-- The usual limit for doubling is one at which a quarter is something. -/
theorem four_le_standardLimit : 4 ≤ 1024 := by decide

structure Policy where
  /-- Only indices above this one may make an array sparse. -/
  sparseIndexThreshold : Nat := 4096
  /-- An array goes sparse when the index is more than this many times its element count. -/
  sparseDensityRatio : Nat := 10
  /-- Capacities below this limit are doubled; larger ones grow by a quarter. -/
  denseDoublingLimit : Nat := 1024
  /-- Capacity is released only when at least this many slots stay. -/
  shrinkReleaseMinimum : Nat := 16
  maxPrototypeDepth : Nat := 10000
  /-- A quarter of a capacity that is not doubled is not nothing. -/
  quartered : 4 ≤ denseDoublingLimit := by first | exact four_le_standardLimit | decide
  deriving DecidableEq, Repr

namespace Policy

def growByQuarters (required capacity : Nat) (wide : 4 ≤ capacity) : Nat :=
  if capacity < required then growByQuarters required (capacity + capacity / 4) (by omega)
  else capacity
  termination_by required - capacity

def grownCapacity (policy : Policy) (capacity required : Nat) : Nat :=
  if required ≤ capacity then capacity
  else if capacity * 2 < required then required
  else if small : capacity < policy.denseDoublingLimit then capacity * 2
  else
    growByQuarters required capacity (Nat.le_trans policy.quartered (Nat.le_of_not_lt small))

def goesSparse (policy : Policy) (index elementCount : Nat) : Bool :=
  policy.sparseIndexThreshold < index &&
    (elementCount == 0 || policy.sparseDensityRatio < index / elementCount)

end Policy

end ObjectModel
