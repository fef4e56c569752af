import ObjectModel.Heap.Run
import ObjectModel.Script.Code

/-!
Sessions: scripts run step by step on a new heap.

All steps are taken, whatever becomes of those before.  Each is reported with what the native code
did that ran during the step.
-/

namespace ObjectModel

structure Session where
  heap : Heap
  frame : Script.Frame

structure Report where
  outcome : Outcome
  events : List Event

namespace Session

def callDepth : Nat := 1000000

def new (policy : Policy) : Session := ⟨.new policy, .empty⟩

/-- Take a step; there is no report if native code calls itself too deeply. -/
def step (session : Session) (step : Script.Step) : Option (Report × Session) := do
  let code := step.code session.heap.policy session.frame
  let (outcome, heap) ← code.run callDepth { session.heap with log := [] }
  return (⟨outcome, heap.log.reverse⟩, ⟨heap, session.frame.after outcome⟩)

def run (session : Session) : List Script.Step → Option (List Report)
  | [] => some []
  | first :: rest => do
    let (report, next) ← session.step first
    return report :: (← next.run rest)

end Session

end ObjectModel
