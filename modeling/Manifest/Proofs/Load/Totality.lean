import Manifest.CommandLine.Run
import Manifest.Proofs.Dispatch.Standard
import Manifest.Proofs.Document.Assigned
import Manifest.Proofs.Load.Failure

/-!
# Loading with the standard functions

Any text is read as an object or has a fault that lies in it, and with the standard functions its
load reports a value or a failure. The exception is a whole number with more digits than are read:
that fault has no place in the text and is not reported, so that the load itself fails
(`load_total`, `load_tooLong`). That there is no other is said of texts below a gigabyte, whose
fractions are read whatever their length (`fractionValue`).
-/

namespace Manifest.CommandLine

open Document
open Numeral (IsRun valueOf maxDigits)

/-- No standard function raises a fault of evaluation in words of its own. -/
theorem standardHost_ne_evaluation (f : Callee Empty) (v : Value) (s : StandardState)
    (message : String) : (standardHost f v s).1 ≠ .error (.evaluation message) := by
  cases f with
  | standard function => exact function.call_ne_evaluation v s
  | host function => cases function

/-- With the standard functions a load reports a value or a failure, unless a whole number of the
text has more digits than are read. -/
theorem load_cases (state : StandardState) (source : String) :
    match ofSource source with
    | .error (.numeral fault) =>
      (state.load standardHost source).outcome = .error (.document (.numeral fault))
    | _ => ∃ loaded, (state.load standardHost source).outcome = .ok loaded := by
  have ended := (state.load_evaluated standardHost source).2
  have possible := ofSource_cases source
  cases read : ofSource source with
  | ok document => exact state.exists_load standardHost_ne_evaluation read
  | error fault =>
    rw [read] at ended possible
    cases fault with
    | lex fault => exact ⟨_, ended⟩
    | parse fault => exact ⟨_, ended⟩
    | numeral fault => exact ended
    | number report => cases possible
    | exhausted => cases possible

/-- Any text is read as an object or has a fault that lies in it. With the standard functions its
load reports a value or a failure, unless a whole number has more digits than are read. A whole
number above the bound is at fault wherever a number may stand: with its span, unless it has more
digits than are read. -/
theorem load_total (source : String) :
    (match ofSource source with
      | .ok root => ∃ entries, root = .object entries
      | .error fault => fault.LiesIn source) ∧
    (∀ state : StandardState,
      match ofSource source with
      | .error (.numeral fault) =>
        (state.load standardHost source).outcome = .error (.document (.numeral fault))
      | _ => ∃ loaded, (state.load standardHost source).outcome = .ok loaded) ∧
    ∀ before literal after, Token.scan source = .ok (before ++ literal :: after) →
      AwaitsNumber before → literal.kind = .integer →
      maxInteger < (valueOf literal.lexeme.toList : Int) →
      ofSource source = .error
        (if maxDigits < literal.lexeme.toList.length then
          .numeral (.tooLong literal.lexeme.toList.length)
        else .lex (.outOfRange literal)) := by
  refine ⟨ofSource_cases source, fun state ↦ load_cases state source, ?_⟩
  intro before literal after scanned awaits kind great
  exact ofSource_literal scanned awaits kind (refusal?_of_lt great)

/-- A whole number that is one too great is at fault with its span. -/
theorem load_total_outOfRange :
    ofSource "x = 2147483648" =
      .error (.lex ⟨⟨4, 14⟩, "2", "integer literal 2147483648 out of range"⟩) := by
  have scanned : Token.scan "x = 2147483648" = .ok ([⟨.identifier, "x", ⟨0, 1⟩⟩,
      ⟨.assign, "=", ⟨2, 3⟩⟩] ++ ⟨.integer, "2147483648", ⟨4, 14⟩⟩ :: [Token.endAt 14]) := by
        decide +kernel
  have value : valueOf "2147483648".toList = 2147483648 := rfl
  have great : maxInteger < (valueOf "2147483648".toList : Int) := by
    rw [value]
    decide
  have blamed := (load_total "x = 2147483648").2.2 _ _ _ scanned (awaitsNumber_assigned rfl rfl)
    rfl great
  rw [blamed]
  rfl

/-- A whole number of 4301 digits has a fault without a place, and with the standard functions the
load of its text fails. -/
theorem load_tooLong :
    let source := "x = " ++ String.ofList (List.replicate 4301 '1')
    ofSource source = .error (.numeral (.tooLong 4301)) ∧
      ∀ state : StandardState, (state.load standardHost source).outcome =
        .error (.document (.numeral (.tooLong 4301))) := by
  intro source
  have length : (List.replicate 4301 '1').length = 4301 := List.length_replicate
  have run : IsRun (List.replicate 4301 '1') := by
    refine ⟨List.ne_nil_of_length_pos (by rw [length]; decide), fun c inside ↦ ?_⟩
    rw [List.eq_of_mem_replicate inside]
    decide
  have read : ofSource source = .error (.numeral (.tooLong 4301)) := by
    have refused := ofSource_tooLong run (by rw [length]; decide)
    rwa [length] at refused
  refine ⟨read, fun state ↦ ?_⟩
  have ended := load_cases state source
  rwa [read] at ended

end Manifest.CommandLine
