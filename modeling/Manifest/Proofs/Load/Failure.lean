import Manifest.Proofs.Dispatch.Trace
import Manifest.Proofs.Load.Append

/-!
# What a load reports

A load evaluates the document of its text and reports how that ended (`load_evaluated`). An
evaluation fails for an unknown function, for a function that failed, or with a fault of evaluation
that a function raised in its own words (`Stops.fault_cases`). The first two are reported as a
failure. The third passes through the call and is taken for a fault of the pipeline, but no
category of failure covers it, so that the load itself fails (`load_of_document`). What a `Host`
leaves out, such as functions that never end, is not spoken of here.
-/

namespace Manifest

variable {F M : Type} {host : Host F M}

/-- Calls made from a state come to one whose function raised a fault and left another state. -/
def LastRaised (host : Host F M) (s : DispatchState F M) (calls : List Dispatch) (fault : Fault)
    (after : DispatchState F M) : Prop :=
  ∃ made d rest before f argument, calls = made ++ d :: rest ∧ Calls host s made before ∧
    before.resolve d.kind d.name = some f ∧ host f argument before = (.error fault, after)

/-- What stops the making of calls is an unknown function, a function that failed, or a fault of
evaluation that the last function called raised in its own words. -/
theorem Stops.fault_cases {s t : DispatchState F M} {calls made : List Dispatch} {fault : Fault}
    (stops : Stops host s calls made fault t) :
    (∃ kind name, fault = .unknownFunction kind name) ∨
      (∃ name cause, fault = .hostFailed name cause) ∨
      ∃ message, fault = .evaluation message ∧ LastRaised host s calls fault t := by
  cases stops with
  | missed => exact .inl ⟨_, _, rfl⟩
  | @failed made rest d before _ f argument answer fault split called found acts fails =>
    cases fails with
    | notResolved => exact .inr (.inl ⟨_, _, rfl⟩)
    | notRecord => exact .inr (.inl ⟨_, _, rfl⟩)
    | @raised raised =>
      cases raised with
      | unknownFunction kind name => exact .inl ⟨kind, name, rfl⟩
      | evaluation message =>
        exact .inr (.inr ⟨message, rfl, made, d, rest, before, f, argument, split, called, found,
          acts⟩)
      | _ => exact .inr (.inl ⟨_, _, rfl⟩)

namespace DispatchState

open Document

/-- A load reports how the evaluation of its document ended, or the fault of a text that has
none. -/
theorem load_evaluated (state : DispatchState F M) (host : Host F M) (source : String) :
    let ended : Evaluated F M := match ofSource source with
      | .error fault => ⟨.error (.document fault), state, []⟩
      | .ok document => state.evaluate host (.value document)
    (state.load host source).state = ended.state ∧
      (state.load host source).outcome =
        match ended.outcome with
        | .ok v => .ok (.ok v)
        | .error fault =>
          if fault.isOwn then (Failure.ofFault fault (some source)).map .error
          else .error fault := by
  intro ended
  have same : ended = (state.interpret host source).evaluated :=
    (state.interpret_evaluated host source).symm
  rw [same, load, Interpreted.evaluated]
  rcases state.interpret host source with ⟨fault | v, after, log⟩
  · dsimp only
    split
    · exact ⟨rfl, rfl⟩
    · exact ⟨rfl, rfl⟩
  · exact ⟨rfl, rfl⟩

/-- A text that loads has a document, which was evaluated. -/
theorem load_eq_ok {state : DispatchState F M} {source : String} {v : Value}
    (loaded : (state.load host source).outcome = .ok (.ok v)) :
    ∃ document, ofSource source = .ok document ∧
      (state.evaluate host (.value document)).outcome = .ok v := by
  have ended := (state.load_evaluated host source).2
  rw [loaded] at ended
  split at ended
  · next w evaluated =>
    cases ended
    cases read : ofSource source with
    | error fault =>
      rw [read] at evaluated
      cases evaluated
    | ok document =>
      rw [read] at evaluated
      exact ⟨document, rfl, evaluated⟩
  · next fault _ =>
    split at ended
    · cases reported : Failure.ofFault fault (some source) <;>
        rw [reported] at ended <;> cases ended
    · cases ended

/-- When no function raises a fault of evaluation in words of its own, the load of a text that has
a document reports how its evaluation ended. -/
theorem exists_load {host : Host F M}
    (quiet : ∀ f v s message, (host f v s).1 ≠ .error (.evaluation message))
    (state : DispatchState F M) {source : String} {document : Value}
    (read : ofSource source = .ok document) :
    ∃ loaded, (state.load host source).outcome = .ok loaded := by
  have made := state.evaluate_makes host document
  have ended := (state.load_evaluated host source).2
  rw [read] at ended
  dsimp only at made ended
  rw [ended]
  revert made
  rcases state.evaluate host (.value document) with ⟨fault | v, after, trace⟩
  · intro stops
    obtain ⟨kind, name, rfl⟩ | ⟨name, cause, rfl⟩ | ⟨message, rfl, raised⟩ := stops.fault_cases
    · exact ⟨_, rfl⟩
    · exact ⟨_, rfl⟩
    · obtain ⟨_, d, _, before, f, argument, -, -, -, acts⟩ := raised
      exact absurd (congrArg Prod.fst acts) (quiet f argument before message)
  · intro _
    exact ⟨_, rfl⟩

/-- The load of a text that has a document reports the value of the document, or a failure of one
of the two categories of evaluation with what the fault says. It fails itself when a function
raised a fault of evaluation in its own words, and for nothing else that a `Host` describes. -/
theorem load_of_document (state : DispatchState F M) (host : Host F M) {source : String}
    {document : Value} (read : ofSource source = .ok document) :
    let loaded := state.load host source
    match (state.evaluate host (.value document)).outcome with
    | .ok v => loaded.outcome = .ok (.ok v)
    | .error (.evaluation message) => loaded.outcome = .error .uncategorized ∧
      LastRaised host state document.dispatches (.evaluation message) loaded.state
    | .error fault => ∃ kind, (kind = .unknownFunction ∨ kind = .host) ∧
      loaded.outcome = .ok (.error ⟨kind, fault.message, none, none⟩) := by
  have made := state.evaluate_makes host document
  have ended := state.load_evaluated host source
  rw [read] at ended
  dsimp only at made ended ⊢
  rw [ended.1, ended.2]
  revert made
  rcases state.evaluate host (.value document) with ⟨fault | v, after, trace⟩
  · intro stops
    obtain ⟨kind, name, rfl⟩ | ⟨name, cause, rfl⟩ | ⟨message, rfl, raised⟩ := stops.fault_cases
    · exact ⟨_, .inl rfl, rfl⟩
    · exact ⟨_, .inr rfl, rfl⟩
    · exact ⟨rfl, raised⟩
  · intro _
    rfl

private def raising (fault : Fault) : Host Unit Unit := fun _ _ state ↦ (.error fault, state)

private def oneFunction : DispatchState Unit Unit := .ofLibrary ⟨[("f", ())], []⟩ .nan ()

private theorem ofSource_oneCall :
    ofSource "x = @f 1" = .ok (.object [.record "x" (.call "f" (.number 1))]) := by decide +kernel

/-- A fault that only the host knows is reported as a failure of its function. -/
theorem load_of_document_foreign :
    ∃ kind, (kind = .unknownFunction ∨ kind = .host) ∧
      (oneFunction.load (raising (.foreign "ValueError" "boom")) "x = @f 1").outcome =
        .ok (.error ⟨kind, "function f failed: boom", none, none⟩) :=
  oneFunction.load_of_document (raising (.foreign "ValueError" "boom")) ofSource_oneCall

/-- A fault of evaluation in the words of the host is not reported: the load of a text that has a
document fails. -/
theorem load_evaluation_fault :
    (∃ document, ofSource "x = @f 1" = .ok document) ∧
      (oneFunction.load (raising (.evaluation "boom")) "x = @f 1").outcome =
        .error .uncategorized := by
  refine ⟨⟨_, ofSource_oneCall⟩, ?_⟩
  have ended := (oneFunction.load_evaluated (raising (.evaluation "boom")) "x = @f 1").2
  rw [ofSource_oneCall] at ended
  exact ended

end DispatchState
end Manifest
