import ObjectModel.Proofs.Verdict.Basic

/-!
# Outcomes

What a result tells about the parts that an outcome is made of.
-/

namespace ObjectModel

theorem exists_of_bind_eq_ok {α β : Type} {outcome : Except Fault α} {next : α → Except Fault β}
    {result : β} (done : outcome.bind next = .ok result) :
    ∃ between, outcome = .ok between ∧ next between = .ok result := by
  cases outcome with
  | error fault => cases done
  | ok between => exact ⟨between, rfl, done⟩

theorem exists_of_map_eq_ok {α β : Type} {outcome : Except Fault α} {change : α → β} {result : β}
    (done : outcome.map change = .ok result) :
    ∃ between, outcome = .ok between ∧ change between = result := by
  cases outcome with
  | error fault => cases done
  | ok between => exact ⟨between, rfl, Except.ok.inj done⟩

theorem exists_of_map_wrap_eq_ok {σ τ : Type} {outcome : Except Fault (Verdict × σ)}
    {wrap : σ → τ} {verdict : Verdict} {next : τ}
    (done : outcome.map (·.map id wrap) = .ok (verdict, next)) :
    ∃ inner, outcome = .ok (verdict, inner) ∧ next = wrap inner := by
  obtain ⟨⟨_, inner⟩, outcome, wrapped⟩ := exists_of_map_eq_ok done
  cases wrapped
  exact ⟨inner, outcome, rfl⟩

end ObjectModel
