import Manifest.Token.Scan
import Manifest.Validation

/-!
# Faults of a text

A text is refused for a lexeme that is none, for a token that cannot stand where it stands, or for
a number that is no number. The first two are tied to a span of the text.
-/

namespace Manifest

/-- Why a token cannot stand where it stands. -/
inductive ParseFault.Kind
  | endOfInput
  | expectedIdentifier
  | expectedValue
  | expectedAssign
  | expectedNumber
  | nestingTooDeep
deriving DecidableEq, Repr

/-- A token at fault: why, and its span. -/
structure ParseFault where
  kind : ParseFault.Kind
  span : Span
deriving DecidableEq, Repr

namespace ParseFault

/-- What a kind of fault says. -/
def Kind.reason : Kind → String
  | endOfInput => "reached end of input while expecting more"
  | expectedIdentifier => "expected identifier"
  | expectedValue => "expected value"
  | expectedAssign => "expected assignment"
  | expectedNumber => "expected number"
  | nestingTooDeep => "values nested too deeply"

/-- The reason and the place. -/
def message (fault : ParseFault) : String := s!"{fault.kind.reason} at {fault.span.text}"

/-- The fault of a token where something else was expected: at the end of the input it is that the
input ends. -/
def unmet (kind : Kind) (token : Token) : ParseFault :=
  ⟨if token.kind = .endOfInput then .endOfInput else kind, token.span⟩

end ParseFault

/-- Why a text is not read as a document. -/
inductive DocumentFault
  | lex (fault : LexFault)
  | parse (fault : ParseFault)
  /-- A literal is no number, or a number too long to read. -/
  | numeral (fault : Numeral.Fault)
  /-- A literal is a number below the 32-bit range. -/
  | number (report : Validation.Report)
  /-- The tokens are used up and none of them was the end of the input. -/
  | exhausted

namespace DocumentFault

/-- What a fault says. -/
def message : DocumentFault → String
  | lex fault => fault.message
  | parse fault => fault.message
  | numeral fault => fault.message
  | number report => report.message
  | exhausted => "list index out of range"

/-- The reason of a fault with a place, and the place. -/
def placed? : DocumentFault → Option (String × Span)
  | lex fault => some (fault.reason, fault.span)
  | parse fault => some (fault.kind.reason, fault.span)
  | _ => none

end DocumentFault
end Manifest
