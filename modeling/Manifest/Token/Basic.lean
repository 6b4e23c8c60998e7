/-!
# Tokens

A token is a stretch of the text with a kind. Its lexeme is the text as written, so a quoted text
keeps its quotes, and its span is the half-open range of offsets it covers.
-/

namespace Manifest

/-- A half-open range of offsets into a text. -/
structure Span where
  start : Int
  stop : Int
deriving DecidableEq, Repr

/-- The offsets of a span with two dots between. -/
def Span.text (span : Span) : String := s!"{span.start}..{span.stop}"

/-- The span moved to the right. -/
def Span.shift (span : Span) (distance : Nat) : Span :=
  ⟨span.start + distance, span.stop + distance⟩

namespace Token

/-- What a token is. -/
inductive Kind
  | identifier
  | integer
  | quoted
  | separator
  | assign
  | openBrace
  | closeBrace
  | openBracket
  | closeBracket
  | point
  /-- The mark of a call that stands for a value. -/
  | valueMark
  /-- The mark of a call that stands for a record. -/
  | recordMark
  | endOfInput
deriving DecidableEq, Repr

end Token

/-- A token of the text. -/
structure Token where
  kind : Token.Kind
  lexeme : String
  span : Span
deriving DecidableEq, Repr

namespace Token

/-- The name of a kind in a listing of tokens. -/
def Kind.name : Kind → String
  | .identifier => "IDENTIFIER"
  | .integer => "INTEGER"
  | .quoted => "STRING"
  | .separator => "SEPARATOR"
  | .assign => "ASSIGN"
  | .openBrace => "LEFT_BRACE"
  | .closeBrace => "RIGHT_BRACE"
  | .openBracket => "LEFT_BRACKET"
  | .closeBracket => "RIGHT_BRACKET"
  | .point => "DOT"
  | .valueMark => "VALUE_CALL"
  | .recordMark => "RECORD_CALL"
  | .endOfInput => "END_OF_INPUT"

/-- The content of a quoted text: its lexeme without the first and the last character. -/
def content (token : Token) : String :=
  String.ofList (token.lexeme.toList.drop 1).dropLast

/-- The end of a text of the given length. -/
def endAt (offset : Nat) : Token := ⟨.endOfInput, "", ⟨offset, offset⟩⟩

/-- The token moved to the right. -/
def shift (token : Token) (distance : Nat) : Token :=
  { token with span := token.span.shift distance }

end Token
end Manifest
