import Manifest.Text.Blank
import Manifest.Text.Quoted
import Manifest.Number.Numeral
import Manifest.Token.Basic

/-!
# Scanning

`Token.scan` cuts a text into tokens. At each place that is not layout the longest lexeme is taken:
a run of digits, a name, a quoted text up to the next quote, or one of the single-character marks.
A name may hold digits but does not start with one. Scanning fails at a character that starts no
lexeme, and at a quote that is never closed.

The lemmas say that a lexeme and what is left after it are the text again (`munch?_append`), so
that the spans are those of the text.
-/

namespace Manifest

/-- A fault that a text shows at a span, before its structure is looked at. -/
structure LexFault where
  span : Span
  /-- The text at fault. -/
  found : String
  reason : String
deriving DecidableEq, Repr

namespace LexFault

/-- The fault of a text that starts no lexeme; a quote fails only for want of a second one. -/
def unexpected (span : Span) (found : String) : LexFault :=
  ⟨span, found,
    if found = "\"" then "unterminated string literal"
    else s!"unrecognized character {Text.quote found}"⟩

/-- The fault of an integer literal that is too large. -/
def outOfRange (token : Token) : LexFault :=
  ⟨token.span, String.ofList (token.lexeme.toList.take 1),
    s!"integer literal {token.lexeme} out of range"⟩

/-- The fault moved to the right. -/
def shift (fault : LexFault) (distance : Nat) : LexFault :=
  { fault with span := fault.span.shift distance }

/-- The reason and the place. -/
def message (fault : LexFault) : String := s!"{fault.reason} at {fault.span.text}"

end LexFault

namespace Token

open Manifest.Text

/-- The characters of names: ASCII letters and digits, the underscore and the hyphen. -/
def isNameChar (c : Char) : Bool :=
  Numeral.isAsciiDigit c || ('A' ≤ c && c ≤ 'Z') || ('a' ≤ c && c ≤ 'z') || c == '_' || c == '-'

/-- The kind of a lexeme of one character. -/
def markKind? (c : Char) : Option Kind :=
  match c with
  | ';' | '\n' => some .separator
  | '=' => some .assign
  | '\x7b' => some .openBrace
  | '\x7d' => some .closeBrace
  | '[' => some .openBracket
  | ']' => some .closeBracket
  | '.' => some .point
  | '@' => some .valueMark
  | '#' => some .recordMark
  | _ => none

/-- A lexeme at the front of a text: its kind, its characters, and the text after it. -/
structure Munch where
  kind : Kind
  lexeme : List Char
  rest : List Char
deriving DecidableEq, Repr

/-- The longest lexeme that starts with a character, given what follows it. -/
def munch? (c : Char) (rest : List Char) : Option Munch :=
  if Numeral.isAsciiDigit c then
    some ⟨.integer, c :: rest.takeWhile Numeral.isAsciiDigit, rest.dropWhile Numeral.isAsciiDigit⟩
  else if isNameChar c then
    some ⟨.identifier, c :: rest.takeWhile isNameChar, rest.dropWhile isNameChar⟩
  else if c = '"' then
    match rest.dropWhile (· != '"') with
    | [] => none
    | close :: after => some ⟨.quoted, c :: (rest.takeWhile (· != '"') ++ [close]), after⟩
  else (markKind? c).map fun kind ↦ ⟨kind, [c], rest⟩

/-- The lexeme and the text after it are the text. -/
theorem munch?_append {c : Char} {rest : List Char} {m : Munch} (h : munch? c rest = some m) :
    m.lexeme ++ m.rest = c :: rest := by
  unfold munch? at h
  split at h
  · cases h
    simp [List.takeWhile_append_dropWhile]
  split at h
  · cases h
    simp [List.takeWhile_append_dropWhile]
  split at h
  · split at h
    · cases h
    · next close after tail =>
      cases h
      have := List.takeWhile_append_dropWhile (p := (· != '"')) (l := rest)
      rw [tail] at this
      simpa using this
  · obtain ⟨kind, _, rfl⟩ := Option.map_eq_some_iff.mp h
    rfl

/-- A lexeme has at least one character. -/
theorem lexeme_ne_nil_of_munch? {c : Char} {rest : List Char} {m : Munch}
    (h : munch? c rest = some m) : m.lexeme ≠ [] := by
  unfold munch? at h
  split at h
  · cases h; simp
  split at h
  · cases h; simp
  split at h
  · split at h <;> cases h
    simp
  · obtain ⟨kind, _, rfl⟩ := Option.map_eq_some_iff.mp h
    simp

/-- What is left after a lexeme is no longer than what followed its first character. -/
theorem length_rest_of_munch? {c : Char} {rest : List Char} {m : Munch}
    (h : munch? c rest = some m) : m.rest.length < (c :: rest).length := by
  have whole := congrArg List.length (munch?_append h)
  have positive := List.length_pos_iff.mpr (lexeme_ne_nil_of_munch? h)
  rw [List.length_append] at whole
  omega

/-- Scan a text that starts at an offset of the whole. -/
def scanFrom (offset : Nat) (text : List Char) : Except LexFault (List Token) :=
  match text with
  | [] => .ok [endAt offset]
  | c :: rest =>
    if isLayout c then scanFrom (offset + 1) rest
    else match h : munch? c rest with
      | none => .error (.unexpected ⟨offset, offset + 1⟩ (String.singleton c))
      | some m =>
        let after := offset + m.lexeme.length
        (scanFrom after m.rest).map (⟨m.kind, String.ofList m.lexeme, ⟨offset, after⟩⟩ :: ·)
termination_by text.length
decreasing_by
  · exact Nat.lt_succ_self rest.length
  · exact length_rest_of_munch? h

/-- A text further to the right has the same tokens, or the same fault, further to the right. -/
theorem scanFrom_add (distance offset : Nat) (text : List Char) :
    scanFrom (offset + distance) text =
      match scanFrom offset text with
      | .ok tokens => .ok (tokens.map (·.shift distance))
      | .error fault => .error (fault.shift distance) := by
  fun_induction scanFrom offset text with
  | case1 offset => simp [scanFrom, endAt, shift, Span.shift]
  | case2 offset c rest layout ih =>
    rw [scanFrom, if_pos layout, ← ih, Nat.add_right_comm]
  | case3 offset c rest layout none =>
    rw [scanFrom, if_neg layout]
    split
    · simp [LexFault.unexpected, LexFault.shift, Span.shift]
      omega
    · next m some => rw [none] at some; cases some
  | case4 offset c rest layout m found after ih =>
    rw [scanFrom, if_neg layout]
    split
    · next none => rw [none] at found; cases found
    · next n some =>
      obtain rfl : n = m := Option.some.inj (some.symm.trans found)
      dsimp only
      rw [Nat.add_right_comm, ih]
      cases scanFrom after n.rest <;> simp [after, shift, Span.shift, Except.map]

/-- The tokens of a text, closed by one end token at its length. -/
def scan (source : String) : Except LexFault (List Token) := scanFrom 0 source.toList

end Token
end Manifest
