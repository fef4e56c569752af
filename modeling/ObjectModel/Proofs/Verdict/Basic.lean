import ObjectModel.Mutation

/-!
# Verdicts

What a mutation comes to, whoever asks for it.  A verdict is the answer of an object before it is
known how the caller wants to hear of a refusal.  For each mutation there is a function that gives
its verdict and the object after it, and the mutation is proved to report just that.  All that a
caller's wish can make different is then how the verdict is reported, and a mutation that ends with
any other fault has left the object as it was.
-/

namespace ObjectModel

/-- The answer of a mutation. -/
inductive Verdict
  | accepted
  | refused (why : Refusal)
  deriving DecidableEq

namespace Verdict

/-- How a caller hears a verdict: a refusal is a fault if the caller asked for faults and `false`
otherwise. -/
def report (strict : Bool) : Verdict → Except Fault Bool
  | .accepted => .ok true
  | .refused why => reject strict why

@[simp]
theorem report_accepted (strict : Bool) : accepted.report strict = .ok true := rfl

@[simp]
theorem report_refused (strict : Bool) (why : Refusal) :
    (refused why).report strict = reject strict why := rfl

@[simp]
theorem report_refused_strict (why : Refusal) :
    (refused why).report true = .error (.attributeViolation why) := rfl

@[simp]
theorem report_refused_lenient (why : Refusal) : (refused why).report false = .ok false := rfl

theorem report_lenient (verdict : Verdict) : verdict.report false = .ok (verdict == .accepted) := by
  cases verdict <;> rfl

variable {σ τ α β : Type} {strict : Bool} {object : σ}

/-- How a caller hears what a change comes to; a fault leaves the object as it was. -/
def passOn (heard : α → Except Fault β) (object : σ) : Except Fault (α × σ) → Except Fault β × σ
  | .ok (result, next) => (heard result, next)
  | .error fault => (.error fault, object)

def settle (strict : Bool) (object : σ) (judged : Except Fault (Verdict × σ)) :
    Except Fault Bool × σ :=
  passOn (report strict) object judged

@[simp]
theorem settle_ok (verdict : Verdict) (next : σ) :
    settle strict object (.ok (verdict, next)) = (verdict.report strict, next) := rfl

@[simp]
theorem settle_error (fault : Fault) :
    settle strict object (.error fault) = (.error fault, object) := rfl

/-- Either nothing has changed, or there is a verdict that goes with the object that is left. -/
theorem settle_snd (strict : Bool) (object : σ) (judged : Except Fault (Verdict × σ)) :
    (settle strict object judged).2 = object ∨
      ∃ verdict, judged = .ok (verdict, (settle strict object judged).2) := by
  cases judged with
  | ok ended => exact .inr ⟨ended.1, rfl⟩
  | error fault => exact .inl rfl

/-- What is settled for a part is settled for the whole that it is put back into. -/
theorem settle_map {judged : Except Fault (Verdict × τ)} {part : τ} {back : τ → σ}
    (whole : back part = object) :
    (settle strict part judged).map id back =
      settle strict object (judged.map fun ended => (ended.1, back ended.2)) := by
  subst whole
  cases judged <;> rfl

end Verdict

end ObjectModel
