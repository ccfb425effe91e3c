/-!
# Renamed Faults

A fault that one part of the program finds is reported by another part as one of its own: with
the name of a field, as an error of a format, or without the text of the line. Renaming faults
changes neither what succeeds nor which runs are at fault.

## Main results

* `mapError_eq_ok_iff`, `mapError_eq_error_iff` — the outcome before the renaming.
-/

namespace InferenceConfig

variable {ε ε' α : Type} {rename : ε → ε'} {outcome : Except ε α}

/-- Renaming a fault does not turn it into success. -/
theorem mapError_eq_ok_iff {value : α} :
    outcome.mapError rename = .ok value ↔ outcome = .ok value := by
  constructor
  · intro h
    cases outcome with
    | error fault => cases h
    | ok found => exact congrArg Except.ok (Except.ok.inj h)
  · rintro rfl
    rfl

/-- A renamed fault comes from the fault that it is the name of. -/
theorem mapError_eq_error_iff {e : ε'} :
    outcome.mapError rename = .error e ↔ ∃ fault, outcome = .error fault ∧ rename fault = e := by
  constructor
  · intro h
    cases outcome with
    | error fault => exact ⟨fault, rfl, Except.error.inj h⟩
    | ok found => cases h
  · rintro ⟨fault, rfl, rfl⟩
    rfl

end InferenceConfig
