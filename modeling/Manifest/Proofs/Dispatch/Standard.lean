import Manifest.Proofs.Dispatch.Taking

/-!
# Faults of the standard functions

The standard functions raise faults of their own causes, and name a function that the library
lacks. None of them raises a fault of evaluation in words of its own
(`Standard.call_ne_evaluation`), which is what a host may do and nothing covers.
-/

namespace Manifest

variable {F M : Type} {message : String}

namespace Standard

private theorem toNumber_ne_evaluation (v : Value) :
    toNumber v ≠ .error (.evaluation message) := by
  intro failed
  unfold toNumber at failed
  split at failed
  · cases failed
  · dsimp only at failed
    split at failed
    · cases failed
    · split at failed
      · cases failed
      · next n _ =>
        cases made : Value.ofInt n with
        | error report =>
          rw [made] at failed
          cases failed
        | ok number =>
          rw [made] at failed
          cases failed
  · cases failed

/-- No standard function raises a fault of evaluation in words of its own. -/
theorem call_ne_evaluation (function : Standard) (v : Value) (s : DispatchState F M) :
    (function.call v s).1 ≠ .error (.evaluation message) := by
  cases function with
  | url =>
    show tagUrl v ≠ _
    unfold tagUrl
    split <;> simp
  | number => exact toNumber_ne_evaluation v
  | language =>
    show checkVersion s.version v ≠ _
    unfold checkVersion
    split
    · split <;> simp
    · simp
  | selection =>
    intro failed
    obtain ⟨-, same⟩ | ⟨_, _, _, _, -, -, -, refuses⟩ := selectFunctions_eq_error_iff.mp failed
    · cases same
    · cases refuses

end Standard
end Manifest
