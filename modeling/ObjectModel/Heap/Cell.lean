import ObjectModel.Fault

/-!
Cells that are borrowed while they are in use.

Any number of readers may hold a cell at once, or one writer alone.  A borrow that overlaps a
writer, or a writer that overlaps any borrow, is a fault.
-/

namespace ObjectModel

inductive Borrow
  | free
  | shared (readers : Nat)
  | exclusive
  deriving DecidableEq, Repr

structure ObjectCell (α : Type) where
  value : α
  borrow : Borrow

namespace ObjectCell

variable {α : Type}

def new (value : α) : ObjectCell α := ⟨value, .free⟩

def read (cell : ObjectCell α) : Except Fault α :=
  match cell.borrow with
  | .exclusive => .error (.internal .beingModified)
  | _ => .ok cell.value

def readForWriting (cell : ObjectCell α) : Except Fault α :=
  match cell.borrow with
  | .free => .ok cell.value
  | _ => .error (.internal .alreadyBorrowed)

def replace (cell : ObjectCell α) (value : α) : Except Fault (α × ObjectCell α) :=
  cell.readForWriting.map fun old => (old, { cell with value })

def borrowShared (cell : ObjectCell α) : Except Fault (ObjectCell α) :=
  match cell.borrow with
  | .free => .ok { cell with borrow := .shared 1 }
  | .shared readers => .ok { cell with borrow := .shared (readers + 1) }
  | .exclusive => .error (.internal .beingModified)

def borrowExclusive (cell : ObjectCell α) : Except Fault (ObjectCell α) :=
  match cell.borrow with
  | .free => .ok { cell with borrow := .exclusive }
  | _ => .error (.internal .alreadyBorrowed)

def release (cell : ObjectCell α) : ObjectCell α :=
  match cell.borrow with
  | .shared (readers + 2) => { cell with borrow := .shared (readers + 1) }
  | _ => { cell with borrow := .free }

def describe (cell : ObjectCell α) (text : α → String) : String :=
  let shown :=
    match cell.borrow with
    | .exclusive => "\"<borrowed>\""
    | _ => text cell.value
  "ObjectCell \x7b value: " ++ shown ++ " \x7d"

end ObjectCell

/-- A cell of an integer together with the borrows of it that are alive, the latest first; `true`
marks the writer. -/
structure GuardedCell where
  cell : ObjectCell Int
  guards : List Bool

inductive CellStep
  | borrowShared
  | borrowExclusive
  | write (n : Int)
  | drop
  | replace (n : Int)
  | describe
  deriving DecidableEq, Repr

inductive CellAnswer
  | value (n : Int)
  | readOnly (n : Int)
  | noGuard
  | dropped (held : Bool)
  | text (description : String)
  deriving DecidableEq, Repr

namespace GuardedCell

def new (n : Int) : GuardedCell := ⟨.new n, []⟩

/-- Carry out one step; a fault changes nothing. -/
def step (guarded : GuardedCell) : CellStep → Except Fault CellAnswer × GuardedCell
  | .borrowShared =>
    match guarded.cell.borrowShared with
    | .ok cell => (.ok (.value cell.value), ⟨cell, false :: guarded.guards⟩)
    | .error fault => (.error fault, guarded)
  | .borrowExclusive =>
    match guarded.cell.borrowExclusive with
    | .ok cell => (.ok (.value cell.value), ⟨cell, true :: guarded.guards⟩)
    | .error fault => (.error fault, guarded)
  | .write n =>
    match guarded.guards with
    | [] => (.ok .noGuard, guarded)
    | true :: _ => (.ok (.value n), { guarded with cell := { guarded.cell with value := n } })
    | false :: _ => (.ok (.readOnly guarded.cell.value), guarded)
  | .drop =>
    match guarded.guards with
    | [] => (.ok (.dropped false), guarded)
    | _ :: rest => (.ok (.dropped true), ⟨guarded.cell.release, rest⟩)
  | .replace n =>
    match guarded.cell.replace n with
    | .ok (old, cell) => (.ok (.value old), { guarded with cell })
    | .error fault => (.error fault, guarded)
  | .describe => (.ok (.text (guarded.cell.describe toString)), guarded)

def run (guarded : GuardedCell) : List CellStep → List (Except Fault CellAnswer) × GuardedCell
  | [] => ([], guarded)
  | step :: rest =>
    let (answer, next) := guarded.step step
    let (answers, final) := next.run rest
    (answer :: answers, final)

end GuardedCell

end ObjectModel
