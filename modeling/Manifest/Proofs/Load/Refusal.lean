import Manifest.Proofs.Dispatch.Taking
import Manifest.Proofs.Load.Confinement

/-!
# Directives that fail

A directive is no transaction. When one of its entries is refused the entries before it stay taken,
so that a document that fails can leave other functions active than it found
(`Standard.selectFunctions_midway`). That is all it can leave: the entry at fault and those after
it change nothing, and the tables are those that were there but for what the entries before it
select (`DispatchState.load_refused`).
-/

namespace Manifest

variable {H M : Type}

private def standardOnly : DispatchState (Callee Empty) Unit :=
  .ofLibrary Callee.standardTables languageVersion ()

private def halfKnown : Value :=
  .object [.record "value" (.array []), .record "record" (.array [.text "nope"])]

/-- A directive that fails at its second entry leaves the tables as the first one made them. -/
theorem Standard.selectFunctions_midway :
    halfKnown.isResolved = true ∧
      (selectFunctions halfKnown standardOnly).1 =
        .error (.unknownFunction (some .record) "nope") ∧
      standardOnly.active.value.names = ["std_url", "number"] ∧
      (selectFunctions halfKnown standardOnly).2.active.value.names = [] ∧
      (selectFunctions halfKnown standardOnly).2.active ≠ standardOnly.active := by
  refine ⟨by decide, rfl, rfl, rfl, fun same ↦ ?_⟩
  have names := congrArg (fun tables ↦ tables.value.names) same
  cases names

namespace DispatchState

private theorem evaluate_refused (host : HostAction H M) {start s : DispatchState (Callee H) M}
    {name : String} {x v : Value} {fault : Fault} {trace : List Dispatch}
    (argument : start.evaluate (Callee.act host) (.value x) = ⟨.ok v, s, trace⟩)
    (bound : s.resolve .record name = some (.standard .selection))
    (refused : (Standard.selectFunctions v s).1 = .error fault) (after : List Entry) :
    start.evaluate (Callee.act host) (.value (.object (.call name x :: after))) =
      ⟨.error (fault.through name), (Standard.selectFunctions v s).2,
        trace ++ [⟨.record, name⟩]⟩ := by
  have acts : Callee.act host (.standard .selection) v s =
      (.error fault, (Standard.selectFunctions v s).2) := Prod.ext refused rfl
  rw [evaluate_value] at argument
  revert argument
  rcases evaluated : (x.evaluate (Callee.act host)).result ⟨start, []⟩ with ⟨outcome, session⟩
  rintro ⟨⟩
  rw [evaluate_object, Value.evaluateEntries, Evaluation.result_bind, evaluated]
  dsimp only
  rw [Evaluation.result_bind, Evaluation.result_dispatch, bound]
  dsimp only
  rw [acts]
  rfl

/-- A directive that fails leaves what its entries before the one at fault select, none if the
argument is no object, and every other table as it was. The document that it stands in leaves the
same. -/
theorem load_refused (host : HostAction H M) {s : DispatchState (Callee H) M} {v : Value}
    {fault : Fault} (refused : (Standard.selectFunctions v s).1 = .error fault) :
    (∃ taken, (∀ entry ∈ taken, Standard.Admits s.library entry) ∧
      Standard.Taken s taken (Standard.selectFunctions v s).2 ∧
      (((∀ entries, v ≠ .object entries) ∧ taken = [] ∧ fault = .expectedObject v) ∨
        ∃ entries entry after, v = .object entries ∧
          Entry.records entries = taken ++ entry :: after ∧
          Standard.Refuses s.library entry fault)) ∧
    ∀ (start between : DispatchState (Callee H) M) (source name : String)
      (before after : List Entry)
      (x r : Value) (calls more : List Dispatch),
      Document.ofSource source = .ok (.object (before ++ .call name x :: after)) →
      start.evaluate (Callee.act host) (.value (.object before)) = ⟨.ok r, between, calls⟩ →
      between.evaluate (Callee.act host) (.value x) = ⟨.ok v, s, more⟩ →
      s.resolve .record name = some (.standard .selection) →
      (start.load (Callee.act host) source).state = (Standard.selectFunctions v s).2 := by
  constructor
  · have ended := Standard.taken_selectFunctions v s
    revert refused ended
    rcases Standard.selectFunctions v s with ⟨cause | answer, t⟩
    · rintro ⟨⟩ ended
      exact ended
    · rintro ⟨⟩
  · intro start between source name before after x r calls more read reached argument bound
    have ended := (start.load_evaluated (Callee.act host) source).1
    rw [read] at ended
    dsimp only at ended
    rw [ended, evaluate_append, reached]
    dsimp only
    rw [evaluate_refused host argument bound refused]

private def namedTwice : Value :=
  .object [.record "value" (.array [.text "number"]), .record "record" (.array [.text "nope"]),
    .record "value" (.array [])]

private def unaided : HostAction Empty Unit := nofun

/-- A directive that fails at its second entry leaves the selection of the first, which the third
would have replaced, and the other table as it was. -/
theorem load_refused_nope :
    (Standard.selectFunctions namedTwice standardOnly).1 =
        .error (.unknownFunction (some .record) "nope") ∧
      let left := (standardOnly.load (Callee.act unaided)
        "#meta-eval \x7b value = [\"number\"] record = [\"nope\"] value = [] \x7d").state
      left.active.value.names = ["number"] ∧ left.active.record = standardOnly.active.record := by
  have refused : (Standard.selectFunctions namedTwice standardOnly).1 =
      .error (.unknownFunction (some .record) "nope") := rfl
  have read : Document.ofSource
      "#meta-eval \x7b value = [\"number\"] record = [\"nope\"] value = [] \x7d" =
        .ok (.object ([] ++ .call "meta-eval" namedTwice :: [])) := by decide +kernel
  have argument : standardOnly.evaluate (Callee.act unaided) (.value namedTwice) =
      ⟨.ok namedTwice, standardOnly, []⟩ := rfl
  have left := (load_refused unaided refused).2 standardOnly standardOnly _ "meta-eval" [] []
    namedTwice (.object []) [] [] read rfl argument rfl
  refine ⟨refused, ?_⟩
  rw [left]
  exact ⟨rfl, rfl⟩

end DispatchState
end Manifest
