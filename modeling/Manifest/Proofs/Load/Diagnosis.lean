import Manifest.Proofs.Document.Blame
import Manifest.Proofs.Load.Failure
import Manifest.Proofs.Text.Lines

/-!
# Failures with a place

A load reports a place only for a fault of its text (`load_span`). What such a fault says stands on
one line (`newline_not_mem_reason`), so that its excerpt has three lines
(`Diagnostic.lines_render`), and the failure points at the span (`load_placed`).
-/

namespace Manifest

/-! ### Text on one line -/

namespace Text

private theorem newline_not_mem_hexDigits (width n : Nat) : '\n' ∉ hexDigits width n := by
  induction width generalizing n with
  | zero => exact List.not_mem_nil
  | succ width ih =>
    have other : ∀ d : Fin 16, '\n' ≠ hexDigit d := by decide
    rw [hexDigits, List.mem_append, List.mem_singleton, not_or]
    exact ⟨ih (n / 16), other ⟨n % 16, Nat.mod_lt n (by decide)⟩⟩

private theorem newline_not_mem_escapeIn {mark : Char} (other : mark ≠ '\n') (c : Char) :
    '\n' ∉ escapeIn mark c := by
  have hex (width : Nat) := newline_not_mem_hexDigits width c.toNat
  unfold escapeIn
  split_ifs with special newline <;> simp only [List.mem_cons, List.not_mem_nil, or_false, not_or]
  · refine ⟨by decide, fun same ↦ ?_⟩
    obtain quoted | slash := special
    · exact other (quoted.symm.trans same.symm)
    · rw [slash] at same
      cases same
  · decide
  · decide
  · decide
  · exact fun same ↦ newline same.symm
  · exact ⟨by decide, by decide, hex 2⟩
  · exact ⟨by decide, by decide, hex 4⟩
  · exact ⟨by decide, by decide, hex 8⟩

/-- A text between quotes stands on one line. -/
theorem newline_not_mem_quote (text : String) : '\n' ∉ (quote text).toList := by
  have mark : quoteFor text.toList ≠ '\n' := by
    unfold quoteFor
    split <;> decide
  rw [quote, String.toList_ofList]
  simp only [List.mem_cons, List.mem_append, List.mem_flatMap, List.not_mem_nil, or_false, not_or,
    not_exists, not_and]
  exact ⟨mark.symm, fun c _ ↦ newline_not_mem_escapeIn mark c, mark.symm⟩

end Text

/-! ### Reasons -/

namespace Document

/-- What a fault of a text says is something, and stands on one line. -/
theorem newline_not_mem_reason {source reason : String} {fault : DocumentFault} {span : Span}
    (failed : ofSource source = .error fault) (placed : fault.placed? = some (reason, span)) :
    reason ≠ "" ∧ '\n' ∉ reason.toList := by
  obtain ⟨before, c, rest, -, rfl⟩ | ⟨tiles, tiling, t, inside, blames⟩ := ofSource_eq_error failed
  · cases placed
    have quoted := Text.newline_not_mem_quote (String.singleton c)
    unfold LexFault.unexpected
    dsimp only
    split
    · decide
    · show "unrecognized character " ++ Text.quote _ ≠ "" ∧
        '\n' ∉ ("unrecognized character " ++ Text.quote _).toList
      simp [quoted]
  · cases fault with
    | parse fault =>
      cases placed
      cases fault.kind <;> decide
    | lex fault =>
      obtain ⟨kind, refused⟩ := blames
      unfold Token.refusal? at refused
      split at refused
      · cases refused
      split at refused
      · cases refused
        cases placed
        obtain inside | last := List.mem_append.mp inside
        · have run := (tiling.stands t inside).lexical.isRun kind
          have digits : '\n' ∉ t.lexeme.toList := fun newline ↦ by
            cases run.digits _ newline
          show "integer literal " ++ t.lexeme ++ " out of range" ≠ "" ∧
            '\n' ∉ ("integer literal " ++ t.lexeme ++ " out of range").toList
          simp [digits]
        · rw [List.mem_singleton.mp last] at kind
          cases kind
      · cases refused
    | _ => cases placed

/-- The span of a fault of a text lies in the text. -/
theorem span_within {source reason : String} {fault : DocumentFault} {span : Span}
    (failed : ofSource source = .error fault) (placed : fault.placed? = some (reason, span)) :
    ∃ i j : Nat, span = ⟨i, j⟩ ∧ i ≤ j ∧ j ≤ source.length := by
  have within : span.Within source.length := by
    have lies := ofSource_cases source
    rw [failed] at lies
    cases fault <;> cases placed <;> exact lies
  obtain ⟨i, j⟩ := span
  obtain ⟨start, order, stop⟩ := within
  dsimp only at start order stop
  obtain ⟨i, rfl⟩ := Int.eq_ofNat_of_zero_le start
  obtain ⟨j, rfl⟩ := Int.eq_ofNat_of_zero_le (Int.le_trans start order)
  exact ⟨i, j, rfl, by omega, by omega⟩

end Document

/-! ### Excerpts -/

namespace Diagnostic

/-- A diagnostic of a text has three lines: the message, the line of the text with its number, and
the carets. -/
theorem lines_render {source message : String} {span : Span} (said : message ≠ "")
    (single : '\n' ∉ message.toList) :
    let place := Text.locate source.toList span.start
    let margin := toString place.line ++ " | "
    '\n' ∉ place.text →
    (render (some source) span (some message)).toList.splitOn '\n' =
      [("error: " ++ message).toList, margin.toList ++ place.text,
        List.replicate (margin.length + place.column - 1) ' ' ++
          List.replicate (caretCount place span) '^'] := by
  intro place margin whole
  have number : '\n' ∉ margin.toList := by
    have digits : '\n' ∉ Nat.toDigits 10 place.line := fun newline ↦ by
      cases Nat.isDigit_of_mem_toDigits (by decide) (by decide) newline
    simpa [margin] using digits
  have carets : '\n' ∉ List.replicate (margin.length + place.column - 1) ' ' ++
      List.replicate (caretCount place span) '^' := by
    simp
  have headline : '\n' ∉ ("error: " ++ message).toList := by
    simpa using single
  have text : (render (some source) span (some message)).toList =
      ("error: " ++ message).toList ++ '\n' :: (margin.toList ++ place.text ++ '\n' ::
        (List.replicate (margin.length + place.column - 1) ' ' ++
          List.replicate (caretCount place span) '^')) := by
    have shape : excerpt place span = margin ++ String.ofList place.text ++ "\n" ++
        String.ofList (List.replicate (margin.length + place.column - 1) ' ' ++
          List.replicate (caretCount place span) '^') := rfl
    rw [render, shape]
    · simp only [String.toList_append, String.toList_ofList, List.append_assoc]
      rfl
    · exact said
  rw [text, List.splitOn_append_cons_self_of_not_mem headline,
    List.splitOn_append_cons_self_of_not_mem, List.splitOn_eq_singleton carets]
  rw [List.mem_append, not_or]
  exact ⟨number, whole⟩

end Diagnostic

/-- A failure points at the characters of a text between two offsets: its place is the line that
holds the first, by number, and the column there. Its excerpt has three lines: the message, that
line with its number in front, and carets from the column on, one at least, under as much of the
characters as the line holds. -/
def Failure.PointsAt (failure : Failure) (text : List Char) (start stop : Nat) : Prop :=
  ∃ place before line after, failure.place = some place ∧
    Text.LineAt text start before line after ∧
    place.line = (text.take start).count '\n' + 1 ∧
    place.column = start - before.length + 1 ∧
    let margin := toString place.line ++ " | "
    place.excerpt.toList.splitOn '\n' =
      [("error: " ++ failure.message).toList, margin.toList ++ line,
        List.replicate (margin.length + place.column - 1) ' ' ++
          List.replicate (max 1 (min stop (before.length + line.length) - start)) '^']

variable {F M : Type}

namespace DispatchState

open Document

/-- A failure that a load reports with a span is that of a fault of its text, with an excerpt. -/
theorem load_span {state : DispatchState F M} {host : Host F M} {source : String}
    {failure : Failure} {span : Span}
    (failed : (state.load host source).outcome = .ok (.error failure))
    (placed : failure.span = some span) :
    ∃ fault, ofSource source = .error fault ∧ fault.placed? = some (failure.message, span) ∧
      let located := Text.locate source.toList span.start
      failure.place = some ⟨located.line, located.column,
        Diagnostic.render (some source) span (some failure.message)⟩ := by
  have ended := (state.load_evaluated host source).2
  rw [failed] at ended
  cases read : ofSource source with
  | error fault =>
    rw [read] at ended
    cases fault with
    | lex fault | parse fault =>
      cases ended
      cases placed
      exact ⟨_, rfl, rfl, rfl⟩
    | _ => cases ended
  | ok document =>
    rw [read] at ended
    dsimp only at ended
    have made := state.evaluate_makes host document
    revert made ended
    rcases state.evaluate host (.value document) with ⟨fault | v, after, trace⟩ <;>
      intro ended made
    · obtain ⟨kind, name, rfl⟩ | ⟨name, cause, rfl⟩ | ⟨message, rfl, -⟩ := made.fault_cases
      · cases ended
        cases placed
      · cases ended
        cases placed
      · cases ended
    · cases ended

/-- A failure that a load reports with a span has it in the text, and points at it. -/
theorem load_placed (state : DispatchState F M) (host : Host F M) {source : String}
    {failure : Failure} {span : Span}
    (failed : (state.load host source).outcome = .ok (.error failure))
    (placed : failure.span = some span) :
    ∃ i j : Nat, span = ⟨i, j⟩ ∧ i ≤ j ∧ j ≤ source.length ∧
      failure.PointsAt source.toList i j := by
  obtain ⟨fault, read, stated, shown⟩ := load_span failed placed
  obtain ⟨said, single⟩ := newline_not_mem_reason read stated
  obtain ⟨i, j, rfl, order, stop⟩ := span_within read stated
  have inside : i ≤ source.toList.length := by
    rw [String.length_toList]
    exact order.trans stop
  obtain ⟨before, after, at_, line, column⟩ := Text.lineAt_locate inside
  refine ⟨i, j, rfl, order, stop, _, before, _, after, shown, at_, line, column, ?_⟩
  rw [Diagnostic.lines_render said single at_.single]
  have carets : Diagnostic.caretCount (Text.locate source.toList i) ⟨i, j⟩ =
      max 1 (min j (before.length + (Text.locate source.toList i).text.length) - i) := by
    have starts := at_.start_le
    unfold Diagnostic.caretCount
    dsimp only
    omega
  rw [carets]

private def noFunctions : DispatchState Unit Unit := .ofLibrary ⟨[], []⟩ .nan ()

private def noHost : Host Unit Unit := fun _ _ state ↦ (.error .uncategorized, state)

private def strayText : String := "a = 1\n\"x\ny\" "

private def strayPlace : Failure.Place :=
  ⟨2, 1, "error: expected identifier\n2 | \"x\n    ^^"⟩

private def strayFailure : Failure :=
  ⟨.parse, "expected identifier", some ⟨6, 11⟩, some strayPlace⟩

/-- A text over two lines that stands where an entry is awaited: the carets end with the first. -/
theorem load_placed_stray :
    (noFunctions.load noHost strayText).outcome = .ok (.error strayFailure) ∧
      ∃ i j : Nat, (⟨6, 11⟩ : Span) = ⟨i, j⟩ ∧ i ≤ j ∧ j ≤ strayText.length ∧
        strayFailure.PointsAt strayText.toList i j := by
  have scanned : Token.scan strayText = .ok [⟨.identifier, "a", ⟨0, 1⟩⟩, ⟨.assign, "=", ⟨2, 3⟩⟩,
      ⟨.integer, "1", ⟨4, 5⟩⟩, ⟨.separator, "\n", ⟨5, 6⟩⟩, ⟨.quoted, "\"x\ny\"", ⟨6, 11⟩⟩,
      Token.endAt 12] := by decide +kernel
  have read : ofSource strayText = .error (.parse ⟨.expectedIdentifier, ⟨6, 11⟩⟩) := by
    rw [ofSource, scanned]
    rfl
  have place : (⟨(Text.locate strayText.toList 6).line, (Text.locate strayText.toList 6).column,
      Diagnostic.render (some strayText) ⟨6, 11⟩ (some "expected identifier")⟩ : Failure.Place) =
        strayPlace := by
    decide
  have failed : (noFunctions.load noHost strayText).outcome = .ok (.error strayFailure) := by
    have ended := (noFunctions.load_evaluated noHost strayText).2
    rw [read] at ended
    rw [ended, strayFailure, ← place]
    rfl
  exact ⟨failed, noFunctions.load_placed noHost failed rfl⟩

end DispatchState
end Manifest
