import Manifest.Proofs.Call.Search
import Manifest.Proofs.Dispatch.Number
import Manifest.Proofs.Document.Assigned
import Manifest.Proofs.Load.Directive

/-!
# Numbers by call and by literal

The standard function `number`, called with a run of digits between quotes, answers the number that
the run denotes, so that the call loads as the run itself does (`DispatchState.load_number`).
Beyond the greatest number of 32 bits both fail: the call as a failure of the function, the run as
one of its text.
-/

namespace Manifest.DispatchState

open Document (maxInteger)
open Numeral (IsRun valueOf maxDigits)

variable {F H M : Type} {digits : List Char}

private theorem load_called (host : HostAction H M) {start : DispatchState (Callee H) M}
    (bound : start.resolve .value "number" = some (.standard .number)) (run : IsRun digits)
    (short : digits.length ≤ maxDigits) :
    let called := start.load (Callee.act host) ("x = @number \"" ++ String.ofList digits ++ "\"")
    ((valueOf digits : Int) ≤ maxInteger →
      called.outcome =
        .ok (.ok (.object [.record "x" (.number (Int32.ofInt (valueOf digits)))]))) ∧
    (maxInteger < (valueOf digits : Int) →
      ∃ failure, called.outcome = .ok (.error failure) ∧ failure.kind = .host) := by
  have plain : '"' ∉ digits := by
    intro inside
    exact absurd (run.digits _ inside) (by decide)
  have read : Document.ofSource ("x = @number \"" ++ String.ofList digits ++ "\"") =
      .ok (.object [.record "x" (.call "number" (.text (String.ofList digits)))]) := by
    have front : "x = @number \"" = "x = @" ++ "number" ++ " \"" := by decide +kernel
    rw [front]
    exact Document.ofSource_textCall (by decide) plain
  have ended :=
    (start.load_evaluated (Callee.act host) ("x = @number \"" ++ String.ofList digits ++ "\"")).2
  have answer := Standard.toNumber_of_isRun run short
  have acts : Callee.act host (.standard .number) (.text (String.ofList digits)) start =
      (Standard.toNumber (.text (String.ofList digits)), start) := rfl
  have one : Value.evaluateEntries (Callee.act host)
      [.record "x" (.call "number" (.text (String.ofList digits)))] =
        (Evaluation.dispatch (Callee.act host) .value "number" (.text (String.ofList digits)) >>=
          fun answer ↦ Evaluation.lift (answer.acceptValue "number")) >>=
            fun v ↦ pure [.record "x" v] := by
    simp only [Value.evaluateEntries, Value.evaluate, pure_bind]
  rw [read] at ended
  dsimp only at ended ⊢
  rw [evaluate_oneCall bound one, acts] at ended
  constructor
  · intro small
    have accepted : ((Except.ok (.value (.number (Int32.ofInt (valueOf digits))))).mapError
        (Fault.through "number")).bind (Datum.acceptValue "number") =
          .ok (.number (Int32.ofInt (valueOf digits))) := by
      change (Datum.value (.number _)).acceptValue "number" = _
      rw [Datum.acceptValue, if_pos ((Datum.isCallFree_iff _).mpr rfl)]
    rw [answer, if_pos small] at ended
    dsimp only at ended
    rw [accepted] at ended
    exact ended
  · intro great
    rw [answer, if_neg (Int.not_le.mpr great)] at ended
    exact ⟨_, ended, rfl⟩

private theorem load_written (host : Host F M) (start : DispatchState F M) (run : IsRun digits)
    (short : digits.length ≤ maxDigits) :
    let written := start.load host ("x = " ++ String.ofList digits)
    ((valueOf digits : Int) ≤ maxInteger →
      written.outcome =
        .ok (.ok (.object [.record "x" (.number (Int32.ofInt (valueOf digits)))]))) ∧
    (maxInteger < (valueOf digits : Int) →
      ∃ failure, written.outcome = .ok (.error failure) ∧ failure.kind = .lex) := by
  have ended := (start.load_evaluated host ("x = " ++ String.ofList digits)).2
  constructor
  · intro small
    rw [Document.ofSource_integer run short small] at ended
    exact ended
  · intro great
    rw [Document.ofSource_outOfRange run short great] at ended
    exact ⟨_, ended, rfl⟩

/-- A call of the standard function `number` with a run of digits loads as a number exactly if the
run itself loads as that number, which is the one that the run denotes. Beyond the greatest number
of 32 bits the call fails as a function, and the run as a lexeme. -/
theorem load_number (host : HostAction H M) (values records : Table H) (memory : M)
    (standard : "number" ∉ values.names) (run : IsRun digits) (short : digits.length ≤ maxDigits) :
    ∃ start : DispatchState (Callee H) M, build .standard values records memory = .ok start ∧
      let called := start.load (Callee.act host) ("x = @number \"" ++ String.ofList digits ++ "\"")
      let written := start.load (Callee.act host) ("x = " ++ String.ofList digits)
      (∀ n : Int32, called.outcome = .ok (.ok (.object [.record "x" (.number n)])) ↔
        written.outcome = .ok (.ok (.object [.record "x" (.number n)]))) ∧
      ((valueOf digits : Int) ≤ maxInteger → ∃ n : Int32, n.toInt = valueOf digits ∧
        called.outcome = .ok (.ok (.object [.record "x" (.number n)])) ∧
        written.outcome = .ok (.ok (.object [.record "x" (.number n)]))) ∧
      (maxInteger < (valueOf digits : Int) →
        (∃ failure, called.outcome = .ok (.error failure) ∧ failure.kind = .host) ∧
        ∃ failure, written.outcome = .ok (.error failure) ∧ failure.kind = .lex) := by
  let start : DispatchState (Callee H) M :=
    ofLibrary (Callee.library values records) languageVersion memory
  refine ⟨start, rfl, ?_⟩
  have bound : start.resolve .value "number" = some (.standard .number) := by
    refine Table.get?_update_of_not_mem _ ?_
    rw [Table.names, List.map_map]
    exact standard
  obtain ⟨calls, fails⟩ := load_called host bound run short
  obtain ⟨loads, refuses⟩ := load_written (Callee.act host) start run short
  intro called written
  refine ⟨fun n ↦ ?_, fun small ↦ ?_, fun great ↦ ⟨fails great, refuses great⟩⟩
  · obtain small | great := le_or_gt (valueOf digits : Int) maxInteger
    · rw [calls small, loads small]
    · obtain ⟨_, first, -⟩ := fails great
      obtain ⟨_, second, -⟩ := refuses great
      rw [first, second]
      simp
  · refine ⟨_, ?_, calls small, loads small⟩
    rw [maxInteger] at small
    exact Int32.toInt_ofInt_of_le (by omega) (by omega)

private def hostless : HostAction Empty Unit := Empty.elim

/-- Zeros in front of a number count for nothing. The number after the greatest fails either
way. -/
theorem load_number_bounds :
    ∃ start : DispatchState (Callee Empty) Unit, build .standard [] [] () = .ok start ∧
      (∃ n : Int32, n.toInt = 42 ∧
        (start.load (Callee.act hostless) "x = @number \"0042\"").outcome =
          .ok (.ok (.object [.record "x" (.number n)])) ∧
        (start.load (Callee.act hostless) "x = 0042").outcome =
          .ok (.ok (.object [.record "x" (.number n)]))) ∧
      (∃ failure, (start.load (Callee.act hostless) "x = @number \"2147483648\"").outcome =
        .ok (.error failure) ∧ failure.kind = .host) ∧
      ∃ failure, (start.load (Callee.act hostless) "x = 2147483648").outcome =
        .ok (.error failure) ∧
        failure.kind = .lex := by
  have padded : IsRun "0042".toList := ⟨by simp, List.all_eq_true.mp (by decide +kernel)⟩
  have great : IsRun "2147483648".toList := ⟨by simp, List.all_eq_true.mp (by decide +kernel)⟩
  obtain ⟨value, beyond⟩ : valueOf "0042".toList = 42 ∧
      valueOf "2147483648".toList = 2147483648 := by
    decide +kernel
  have texts : "x = @number \"" ++ String.ofList "0042".toList ++ "\"" = "x = @number \"0042\"" ∧
      "x = " ++ String.ofList "0042".toList = "x = 0042" ∧
      "x = @number \"" ++ String.ofList "2147483648".toList ++ "\"" =
        "x = @number \"2147483648\"" ∧
      "x = " ++ String.ofList "2147483648".toList = "x = 2147483648" := by decide +kernel
  have standard : "number" ∉ Table.names ([] : Table Empty) := List.not_mem_nil
  obtain ⟨start, begins, -, loads, -⟩ := load_number hostless [] [] () standard padded (by decide)
  obtain ⟨again, begins', -, -, fails⟩ := load_number hostless [] [] () standard great (by decide)
  obtain rfl : start = again := Except.ok.inj (begins.symm.trans begins')
  rw [texts.1, texts.2.1, value] at loads
  rw [texts.2.2.1, texts.2.2.2, beyond] at fails
  exact ⟨start, begins, loads (by decide), fails (by decide)⟩

end Manifest.DispatchState
