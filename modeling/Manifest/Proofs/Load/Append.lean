import Manifest.Load
import Manifest.Proofs.Dispatch.Session
import Manifest.Proofs.Document.Append

/-!
# Loading documents one after the other

An interpretation does to the dispatch state what the evaluation of its document does, and nothing
when there is no document (`interpret_evaluated`). Two texts with a line break between them are
therefore interpreted as the first and then, in the state that is left, the second, as long as
every bracket of the first is closed and both have a document (`interpret_append`).
-/

namespace Manifest

variable {F M : Type}

/-- The calls that were made, in order. -/
def Interpreted.dispatches {α : Type} (interpreted : Interpreted F M α) : List Dispatch :=
  interpreted.log.filterMap fun
    | .called dispatch => some dispatch
    | _ => none

/-- The end of an interpretation without the other stages: its outcome, the state it left, and the
calls it made. -/
def Interpreted.evaluated (interpreted : Interpreted F M Value) : Evaluated F M :=
  ⟨interpreted.outcome, interpreted.state, interpreted.dispatches⟩

namespace DispatchState

open Document

/-- An interpretation fails with the fault of the text or evaluates its document. -/
theorem interpret_evaluated (state : DispatchState F M) (host : Host F M) (source : String) :
    (state.interpret host source).evaluated =
      match ofSource source with
      | .error fault => ⟨.error (.document fault), state, []⟩
      | .ok document => state.evaluate host (.value document) := by
  have calls (trace : List Dispatch) : (trace.map Event.called).filterMap (fun
      | .called dispatch => some dispatch
      | _ => none) = trace := by
    rw [List.filterMap_map]
    exact List.filterMap_some
  rw [interpret, ofSource]
  cases Token.scan source with
  | error fault => rfl
  | ok tokens =>
    dsimp only
    cases ofTokens tokens with
    | error fault => rfl
    | ok document =>
      dsimp only
      rcases state.evaluate host (.value document) with ⟨_ | v, after, trace⟩
      · simp [Interpreted.evaluated, Interpreted.dispatches, calls]
      · simp [Interpreted.evaluated, Interpreted.dispatches, calls]

/-- Two texts with a line break between them, when the first has a document in which every bracket
is closed. If the second has a document too, they are interpreted as the first and then, unless
that fails, the second in the state that is left, and the result has the entries of both. If it has
none, its fault is found further to the right, and nothing is called. -/
theorem interpret_append (state : DispatchState F M) (host : Host F M) {a : String}
    {tokens : List Token} {root : Value} (scanned : Token.scan a = .ok tokens)
    (read : ofTokens tokens = .ok root) (closed : openBrackets 0 tokens = 0) (b : String) :
    (state.interpret host (a ++ "\n" ++ b)).evaluated =
      match ofSource b with
      | .error fault => ⟨.error (.document (fault.shift (a.length + 1))), state, []⟩
      | .ok _ =>
        let one := (state.interpret host a).evaluated
        match one.outcome with
        | .error fault => ⟨.error fault, one.state, one.trace⟩
        | .ok x =>
          let other := (one.state.interpret host b).evaluated
          ⟨other.outcome.map fun y ↦ .object (x.entries ++ y.entries), other.state,
            one.trace ++ other.trace⟩ := by
  have first : ofSource a = .ok root := by
    rw [ofSource, scanned]
    exact read
  obtain ⟨es, rfl⟩ := ofSource_object first
  simp only [interpret_evaluated, ofSource_append scanned read closed, first]
  cases second : ofSource b with
  | error fault => rfl
  | ok document =>
    obtain ⟨fs, rfl⟩ := ofSource_object second
    exact evaluate_append state es fs

private def note : Host Unit Nat := fun _ argument state ↦
  (.ok (.record "note" argument), { state with memory := state.memory + 1 })

private def noted (calls : Nat) : DispatchState Unit Nat :=
  .ofLibrary ⟨[], [("note", ())]⟩ .nan calls

/-- Two notes in two texts are taken one after the other. -/
theorem interpret_append_notes :
    ((noted 0).interpret note ("#note [1]" ++ "\n" ++ "#note 2")).evaluated =
      ⟨.ok (.object [.record "note" (.array [.number 1]), .record "note" (.number 2)]), noted 2,
        [⟨.record, "note"⟩, ⟨.record, "note"⟩]⟩ := by
  have scanned : Token.scan "#note [1]" = .ok [⟨.recordMark, "#", ⟨0, 1⟩⟩,
      ⟨.identifier, "note", ⟨1, 5⟩⟩, ⟨.openBracket, "[", ⟨6, 7⟩⟩, ⟨.integer, "1", ⟨7, 8⟩⟩,
      ⟨.closeBracket, "]", ⟨8, 9⟩⟩, Token.endAt 9] := by decide +kernel
  have read : ofTokens [⟨.recordMark, "#", ⟨0, 1⟩⟩, ⟨.identifier, "note", ⟨1, 5⟩⟩,
      ⟨.openBracket, "[", ⟨6, 7⟩⟩, ⟨.integer, "1", ⟨7, 8⟩⟩, ⟨.closeBracket, "]", ⟨8, 9⟩⟩,
      Token.endAt 9] = .ok (.object [.call "note" (.array [.number 1])]) := by decide +kernel
  have second : ofSource "#note 2" = .ok (.object [.call "note" (.number 2)]) := by decide +kernel
  have first : ofSource "#note [1]" = .ok (.object [.call "note" (.array [.number 1])]) := by
    rw [ofSource, scanned]
    exact read
  rw [interpret_append (noted 0) note scanned read (by decide), second]
  simp only [interpret_evaluated, first, second]
  with_unfolding_all rfl

end DispatchState
end Manifest
