import ObjectModel.Heap.Run
import ObjectModel.Session
import ObjectModel.Proofs.Verdict.Basic
import ObjectModel.Proofs.Verdict.Property
import ObjectModel.Proofs.Verdict.Ordinary
import ObjectModel.Proofs.Verdict.Array
import ObjectModel.Proofs.Verdict.Host
import ObjectModel.Proofs.Verdict.Object
import ObjectModel.Proofs.Verdict.Heap
import ObjectModel.Proofs.Table.Ascending
import ObjectModel.Proofs.Array.Storage
import ObjectModel.Proofs.Array.WellFormed
import ObjectModel.Proofs.Array.Mutation
import ObjectModel.Proofs.Array.Reachable
import ObjectModel.Proofs.Array.Reference
import ObjectModel.Proofs.Array.Sparse
import ObjectModel.Proofs.Array.Refinement
import ObjectModel.Proofs.Property.Succession
import ObjectModel.Proofs.Object.Evolution
import ObjectModel.Proofs.Array.Evolution
import ObjectModel.Proofs.Object.Mutation
import ObjectModel.Proofs.Heap.Action
import ObjectModel.Proofs.Heap.Eager
import ObjectModel.Proofs.Heap.Discipline
import ObjectModel.Proofs.Outcome
import ObjectModel.Proofs.Heap.Store
import ObjectModel.Proofs.Heap.Direct
import ObjectModel.Proofs.Heap.Evolution
import ObjectModel.Proofs.Table.Ordered
import ObjectModel.Proofs.Array.Assignment
import ObjectModel.Proofs.Object.Gain
import ObjectModel.Proofs.Heap.Assignment
import ObjectModel.Proofs.Object.Atomicity
import ObjectModel.Proofs.Array.Atomicity
import ObjectModel.Proofs.Heap.Strictness
import ObjectModel.Proofs.Heap.Atomicity
import ObjectModel.Proofs.Heap.Serving
import ObjectModel.Proofs.Heap.Ancestry
import ObjectModel.Proofs.Heap.Grounded
import ObjectModel.Proofs.Heap.Construction
import ObjectModel.Proofs.Heap.Lazy
import ObjectModel.Proofs.Heap.Lifecycle
import ObjectModel.Proofs.Heap.OneShot
import ObjectModel.Proofs.Heap.Search
import ObjectModel.Proofs.Heap.Decision
import ObjectModel.Proofs.Heap.Simulation
import ObjectModel.Proofs.Heap.Alike
import ObjectModel.Proofs.Heap.Mirror
import ObjectModel.Proofs.Heap.Unwrapping
import ObjectModel.Proofs.Heap.Mirrored
import ObjectModel.Proofs.Heap.Unobservable
import ObjectModel.Proofs.Object.OwnKeys
import ObjectModel.Proofs.Object.Rekeying
import ObjectModel.Proofs.Object.Rearrangement
import ObjectModel.Proofs.Heap.Tidy
import ObjectModel.Proofs.Heap.Tidying
import ObjectModel.Proofs.Heap.OwnKeys
import ObjectModel.Proofs.Text.Roundtrip
import ObjectModel.Proofs.Key.Numeral
import ObjectModel.Proofs.Host.KeyType
import ObjectModel.Proofs.Host.Map
import ObjectModel.Proofs.Heap.Invariant
import ObjectModel.Proofs.Heap.Keyed
import ObjectModel.Proofs.Object.Listing
import ObjectModel.Proofs.Heap.Sound
import ObjectModel.Proofs.Heap.Enumeration
import ObjectModel.Proofs.Tree
import ObjectModel.Proofs.Heap.Projection
import ObjectModel.Proofs.Heap.Export
import ObjectModel.Proofs.Object.Frame
import ObjectModel.Proofs.Array.Frame
import ObjectModel.Proofs.Object.Isolation
import ObjectModel.Proofs.Heap.Quiet
import ObjectModel.Proofs.Heap.Frame
import ObjectModel.Proofs.Number.Whole
import ObjectModel.Proofs.Host.Element
import ObjectModel.Proofs.Key.Canonical
import ObjectModel.Proofs.Host.Separation
import ObjectModel.Proofs.Host.Definition
import ObjectModel.Proofs.Host.Closure
import ObjectModel.Proofs.Heap.Amendment
import ObjectModel.Proofs.Heap.Separation
import ObjectModel.Proofs.Heap.Definition
import ObjectModel.Proofs.Heap.Silence
import ObjectModel.Proofs.Heap.Confinement
import ObjectModel.Proofs.Heap.Closure
import ObjectModel.Proofs.Text.Units
import ObjectModel.Proofs.Key.Bijection
import ObjectModel.Proofs.Property.Merge
import ObjectModel.Proofs.Property.Stability
import ObjectModel.Proofs.Object.Canonical
import ObjectModel.Proofs.Heap.Canonical
import ObjectModel.Proofs.Object.Stability
import ObjectModel.Proofs.Heap.Stability
import ObjectModel.Proofs.Array.Length
import ObjectModel.Proofs.Heap.Length
import ObjectModel.Proofs.Heap.Walk
import ObjectModel.Proofs.Heap.Reading
import ObjectModel.Proofs.Heap.Depth
import ObjectModel.Proofs.Object.Filling
import ObjectModel.Proofs.Object.Writing
import ObjectModel.Proofs.Heap.Filling
import ObjectModel.Proofs.Heap.Putting
import ObjectModel.Proofs.Heap.Exchange
import ObjectModel.Proofs.Text.Order
import ObjectModel.Proofs.Array.Sorting
import ObjectModel.Proofs.Host.Calls
import ObjectModel.Proofs.Host.SharedList
import ObjectModel.Proofs.Host.SharedMap
import ObjectModel.Proofs.Text.Search
import ObjectModel.Proofs.Array.Growth
import ObjectModel.Proofs.Number.Grammar
import ObjectModel.Proofs.Heap.Stored
