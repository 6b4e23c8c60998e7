import Manifest.Text.Line
import Manifest.Token.Basic

/-!
# Diagnostics

A diagnostic shows the line of a text that holds the start of a span, with carets under the span.
There is at least one caret, and none stands past the line.
-/

namespace Manifest.Diagnostic

/-- The number of carets under a line: as many as the span is long, within the line. -/
def caretCount (place : Text.Location) (span : Span) : Nat :=
  (max 1 (min (span.stop - span.start) ((place.text.length : Int) - place.column + 1))).toNat

/-- The line with its number, and the carets under the span. -/
def excerpt (place : Text.Location) (span : Span) : String :=
  let margin := s!"{place.line} | "
  let indent := List.replicate (margin.length + place.column - 1) ' '
  margin ++ String.ofList place.text ++ "\n" ++
    String.ofList (indent ++ List.replicate (caretCount place span) '^')

/-- The message, if there is one, and the excerpt; without a text the message alone. -/
def render (source : Option String) (span : Span) (message : Option String) : String :=
  match source with
  | none => message.getD ""
  | some text =>
    let place := Text.locate text.toList span.start
    let headline := match message with
      | none | some "" => ""
      | some message => "error: " ++ message ++ "\n"
    headline ++ excerpt place span

end Manifest.Diagnostic
