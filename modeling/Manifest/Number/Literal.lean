import Manifest.Number.Decimal

/-!
# Reading floating point text

`Literal.parse?` reads the common notation: a sign, digits with an optional point and exponent, or
a word for infinity or not a number in any case. `readReal?` and `readLooseReal?` differ in what
they accept around and inside it: the first takes digits of any script and underscores between
digits, the second white space and single underscores anywhere but at the ends.
-/

namespace Manifest

open Numeral (isAsciiDigit valueOf takeSign)

/-- A number as a text states it. -/
inductive Literal
  | nan
  | infinite (negative : Bool)
  | decimal (negative : Bool) (value : Decimal)
deriving DecidableEq, Repr

namespace Literal

/-- An exponent part with its mark, or nothing at all. -/
def exponent? : List Char → Option Int
  | [] => some 0
  | mark :: rest =>
    let (negative, digits) := takeSign rest
    if (mark == 'e' || mark == 'E') && !digits.isEmpty && digits.all isAsciiDigit then
      some (if negative then -(valueOf digits : Int) else valueOf digits)
    else none

/-- Digits with an optional point, then an optional exponent part. -/
def decimal? (text : List Char) : Option Decimal :=
  let whole := text.takeWhile isAsciiDigit
  let afterWhole := text.dropWhile isAsciiDigit
  let (fraction, tail) := match afterWhole with
    | '.' :: rest => (rest.takeWhile isAsciiDigit, rest.dropWhile isAsciiDigit)
    | rest => ([], rest)
  if whole.isEmpty && fraction.isEmpty then none
  else (exponent? tail).map fun e ↦ ⟨valueOf (whole ++ fraction), e - fraction.length⟩

/-- A signed number or word. -/
def parse? (text : List Char) : Option Literal :=
  let (negative, body) := takeSign text
  let word := String.ofList (body.map Char.toLower)
  if word = "nan" then some nan
  else if word = "inf" ∨ word = "infinity" then some (infinite negative)
  else (decimal? body).map (decimal negative)

/-- The value nearest to what the text states. -/
def value {f : Format} : Literal → Binary f
  | nan => .nan
  | infinite negative => .infinite negative
  | decimal negative d => .ofDecimal negative d

end Literal

/-- Remove the underscores of a text in which each stands between two digits. -/
def dropUnderscores? : (afterDigit : Bool) → List Char → Option (List Char)
  | _, [] => some []
  | afterDigit, c :: rest =>
    if c = '_' then
      if afterDigit && rest.head?.any isAsciiDigit then dropUnderscores? false rest else none
    else (dropUnderscores? (isAsciiDigit c) rest).map (c :: ·)

/-- Read a number given as text: blanks around it, digits of any script, underscores between
digits. -/
def readReal? (text : String) : Option Double :=
  let ascii := Text.stripBy Text.isAsciiBlank (text.toList.map Numeral.toAscii)
  ((dropUnderscores? false ascii).bind Literal.parse?).map Literal.value

/-- Join the whole part and the fraction of a number, each given as text. Leading zeros of the
fraction count, so `4` and `03` are 4.03. -/
def joinReal (whole fraction : String) : Except Numeral.Fault Double := do
  let n ← Numeral.readInteger whole
  let text := String.ofList (Numeral.ofInt n) ++ "." ++ fraction
  match readReal? text with
  | some x => .ok x
  | none => .error (.notReal text)

/-- Read a number given as text: white space around it, or single underscores inside it. -/
def readLooseReal? (text : String) : Option Double :=
  let read (s : List Char) : Option Double := (Literal.parse? s).map Literal.value
  (read (Text.stripBy Text.isWhiteSpace text.toList)).or
    (if Numeral.underscoresInside text.toList then read (text.toList.filter (· != '_')) else none)

end Manifest
