import Phrasebook.Failure

/-!
# Results that come of results

What was reached through operations that can fail came of what each of them gave.
-/

namespace Phrasebook

variable {α β : Type} {result : Except Failure α} {value : β}

/-- What became of a result that was changed came of the result. -/
theorem ok_of_map_eq_ok {change : α → β} (outcome : result.map change = .ok value) :
    ∃ before, result = .ok before ∧ change before = value := by
  cases result with
  | error failure => cases outcome
  | ok before => exact ⟨before, rfl, Except.ok.inj outcome⟩

/-- A result that is changed fails as it did before. -/
theorem map_eq_error_iff {change : α → β} {failure : Failure} :
    result.map change = .error failure ↔ result = .error failure := by
  cases result with
  | error other => exact ⟨fun outcome => congrArg _ (Except.error.inj outcome),
      fun outcome => congrArg _ (Except.error.inj outcome)⟩
  | ok before => exact iff_of_false nofun nofun

/-- What a next operation gave came of the result before. -/
theorem ok_of_bind_eq_ok {next : α → Except Failure β} (outcome : result.bind next = .ok value) :
    ∃ before, result = .ok before ∧ next before = .ok value := by
  cases result with
  | error failure => cases outcome
  | ok before => exact ⟨before, rfl, outcome⟩

end Phrasebook
