import Manifest.Json.Basic
import Manifest.Number.Literal
import Manifest.Text.Line

/-!
# Reading plain data

`Json.read` reads one datum from JSON text with blanks around it, and says what is missing and
where when the text is none. The words for infinity and not a number are read too. Of two members
with one key the later gives the value. A text that starts with a byte order mark is refused.

The reader goes down one level at a time with a bound on the steps left; the length of the text
bounds the steps, so the bound that `read` starts with is never reached.
-/

namespace Manifest.Json

/-- What is wrong at a place of a text. -/
inductive Cause
  | expectingValue
  | expectingName
  | expectingColon
  | expectingComma
  | extraData
  | unterminatedString
  | invalidEscape
  | invalidUnicodeEscape
  | invalidControl
  | byteOrderMark
deriving DecidableEq, Repr

/-- Why a text is not read. -/
inductive ReadFault
  /-- It is not JSON. -/
  | malformed (cause : Cause) (offset : Nat)
  /-- It holds a whole number that is too long to read. -/
  | numeral (fault : Numeral.Fault)
deriving DecidableEq, Repr

/-- What a cause says. -/
def Cause.message : Cause → String
  | expectingValue => "Expecting value"
  | expectingName => "Expecting property name enclosed in double quotes"
  | expectingColon => "Expecting ':' delimiter"
  | expectingComma => "Expecting ',' delimiter"
  | extraData => "Extra data"
  | unterminatedString => "Unterminated string starting at"
  | invalidEscape => "Invalid \\escape"
  | invalidUnicodeEscape => "Invalid \\uXXXX escape"
  | invalidControl => "Invalid control character at"
  | byteOrderMark => "Unexpected UTF-8 BOM (decode using utf-8-sig)"

/-- What a fault of a text says, with the place in line and column and from the start. -/
def ReadFault.message (source : String) : ReadFault → String
  | malformed cause offset =>
    let place := Text.locate source.toList offset
    s!"{cause.message}: line {place.line} column {place.column} (char {offset})"
  | numeral fault => fault.message

/-- The blanks between the parts of a JSON text. -/
def isSpace (c : Char) : Bool := c == ' ' || c == '\t' || c == '\n' || c == '\r'

/-- What is left of a text, and the offset at which it starts. -/
structure Rest where
  offset : Nat
  text : List Char
deriving DecidableEq, Repr

namespace Rest

/-- Go on past a number of characters. -/
def skip (r : Rest) (count : Nat) : Rest := ⟨r.offset + count, r.text.drop count⟩

/-- Go on past blanks. -/
def skipSpace (r : Rest) : Rest := r.skip (r.text.takeWhile isSpace).length

/-- Refuse the text at this place. -/
def fail {α : Type} (r : Rest) (cause : Cause) : Except ReadFault α :=
  .error (.malformed cause r.offset)

end Rest

/-- The value of a hexadecimal digit of either case. -/
def hexValue? (c : Char) : Option Nat :=
  if '0' ≤ c ∧ c ≤ '9' then some (c.toNat - 48)
  else if 'a' ≤ c ∧ c ≤ 'f' then some (c.toNat - 87)
  else if 'A' ≤ c ∧ c ≤ 'F' then some (c.toNat - 55)
  else none

/-- The number of four hexadecimal digits. -/
def hexUnit? (a b c d : Char) : Option Nat :=
  match hexValue? a, hexValue? b, hexValue? c, hexValue? d with
  | some a, some b, some c, some d => some (((a * 16 + b) * 16 + c) * 16 + d)
  | _, _, _, _ => none

/-- The character of an escape of one letter. -/
def shortEscape? (c : Char) : Option Char :=
  match c with
  | '"' => some '"'
  | '\\' => some '\\'
  | '/' => some '/'
  | 'b' => some '\x08'
  | 'f' => some '\x0c'
  | 'n' => some '\n'
  | 'r' => some '\r'
  | 't' => some '\t'
  | _ => none

/-- Code units and code points as characters: a high and a low surrogate in a row are one
character, and a surrogate alone becomes the replacement character. -/
def joinSurrogates : List Nat → List Char
  | [] => []
  | [unit] => [if 0xd800 ≤ unit ∧ unit < 0xe000 then '\ufffd' else Char.ofNat unit]
  | high :: low :: rest =>
    if 0xd800 ≤ high ∧ high < 0xdc00 ∧ 0xdc00 ≤ low ∧ low < 0xe000 then
      Char.ofNat (0x10000 + (high - 0xd800) * 0x400 + (low - 0xdc00)) :: joinSurrogates rest
    else
      (if 0xd800 ≤ high ∧ high < 0xe000 then '\ufffd' else Char.ofNat high) ::
        joinSurrogates (low :: rest)

/-- Put a unit before what was read after it. -/
def consUnit (unit : Nat) :
    Except ReadFault (List Nat × Rest) → Except ReadFault (List Nat × Rest) :=
  Except.map fun (units, rest) ↦ (unit :: units, rest)

/-- The units of a text up to its closing quote, for a text whose opening quote is at `start`. -/
def readUnits (start offset : Nat) : List Char → Except ReadFault (List Nat × Rest)
  | [] => .error (.malformed .unterminatedString start)
  | '"' :: rest => .ok ([], ⟨offset + 1, rest⟩)
  | ['\\'] => .error (.malformed .unterminatedString start)
  | '\\' :: 'u' :: a :: b :: c :: d :: next :: rest =>
    match hexUnit? a b c d with
    | some unit => consUnit unit (readUnits start (offset + 6) (next :: rest))
    | none => .error (.malformed .invalidUnicodeEscape (offset + 1))
  | '\\' :: 'u' :: _ => .error (.malformed .invalidUnicodeEscape (offset + 1))
  | '\\' :: letter :: rest =>
    match shortEscape? letter with
    | some c => consUnit c.toNat (readUnits start (offset + 2) rest)
    | none => .error (.malformed .invalidEscape offset)
  | c :: rest =>
    if c.toNat < 0x20 then .error (.malformed .invalidControl offset)
    else consUnit c.toNat (readUnits start (offset + 1) rest)

/-- The text after an opening quote, which stands just before. -/
def readString (r : Rest) : Except ReadFault (String × Rest) :=
  (readUnits (r.offset - 1) r.offset r.text).map fun (units, rest) ↦
    (String.ofList (joinSurrogates units), rest)

/-- The words that are data. -/
def words : List (List Char × Json) :=
  [("null".toList, .null), ("true".toList, .bool true), ("false".toList, .bool false),
    ("NaN".toList, .real .nan), ("Infinity".toList, .real (.infinite false)),
    ("-Infinity".toList, .real (.infinite true))]

/-- A word at the front. -/
def readWord? (r : Rest) : Option (Json × Rest) :=
  words.findSome? fun (word, datum) ↦
    if word.isPrefixOf r.text then some (datum, r.skip word.length) else none

/-- The digits before the point: a zero, or digits that do not start with one. -/
def wholeDigits? : List Char → Option (List Char)
  | '0' :: _ => some ['0']
  | c :: rest =>
    if Numeral.isAsciiDigit c then some (c :: rest.takeWhile Numeral.isAsciiDigit) else none
  | [] => none

/-- The digits after a point, if there is a point with a digit after it. -/
def fractionDigits : List Char → List Char
  | '.' :: rest => rest.takeWhile Numeral.isAsciiDigit
  | _ => []

/-- The characters of an exponent part, if the mark has a digit after it. -/
def exponentChars : List Char → List Char
  | [] => []
  | mark :: rest =>
    if mark == 'e' || mark == 'E' then
      let sign := rest.take (if rest.head? == some '-' || rest.head? == some '+' then 1 else 0)
      let digits := (rest.drop sign.length).takeWhile Numeral.isAsciiDigit
      if digits.isEmpty then [] else mark :: (sign ++ digits)
    else []

/-- A number at the front: a whole number if it has neither fraction nor exponent. -/
def readNumber? (r : Rest) : Option (Except ReadFault (Json × Rest)) :=
  let sign := if r.text.head? == some '-' then ['-'] else []
  (wholeDigits? (r.text.drop sign.length)).map fun whole ↦
    let afterWhole := r.text.drop (sign.length + whole.length)
    let fraction := fractionDigits afterWhole
    let pointLength := if fraction.isEmpty then 0 else fraction.length + 1
    let exponent := exponentChars (afterWhole.drop pointLength)
    let rest := r.skip (sign.length + whole.length + pointLength + exponent.length)
    if fraction.isEmpty && exponent.isEmpty then
      if Numeral.maxDigits < whole.length then .error (.numeral (.tooLong whole.length))
      else
        let n : Int := Numeral.valueOf whole
        .ok (.integer (if sign.isEmpty then n else -n), rest)
    else
      let power := (Literal.exponent? exponent).getD 0
      let decimal : Decimal := ⟨Numeral.valueOf (whole ++ fraction), power - fraction.length⟩
      .ok (.real (.ofDecimal (!sign.isEmpty) decimal), rest)

mutual

/-- A datum at the front. -/
def readValue (steps : Nat) (r : Rest) : Except ReadFault (Json × Rest) :=
  match steps with
  | 0 => r.fail .expectingValue
  | steps + 1 =>
    match r.text with
    | '"' :: _ => (readString (r.skip 1)).map fun (s, rest) ↦ (.string s, rest)
    | '[' :: _ =>
      let inside := (r.skip 1).skipSpace
      if inside.text.head? == some ']' then .ok (.array [], inside.skip 1)
      else (readItems steps inside).map fun (items, rest) ↦ (.array items, rest)
    | '\x7b' :: _ =>
      let inside := (r.skip 1).skipSpace
      if inside.text.head? == some '\x7d' then .ok (.object [], inside.skip 1)
      else (readMembers steps [] inside).map fun (members, rest) ↦ (.object members, rest)
    | _ =>
      match readWord? r with
      | some found => .ok found
      | none => (readNumber? r).getD (r.fail .expectingValue)

/-- Items up to the closing bracket. -/
def readItems (steps : Nat) (r : Rest) : Except ReadFault (List Json × Rest) :=
  match steps with
  | 0 => r.fail .expectingValue
  | steps + 1 => do
    let (item, rest) ← readValue steps r
    let rest := rest.skipSpace
    match rest.text with
    | ']' :: _ => .ok ([item], rest.skip 1)
    | ',' :: _ =>
      let (items, rest) ← readItems steps (rest.skip 1).skipSpace
      .ok (item :: items, rest)
    | _ => rest.fail .expectingComma

/-- Members up to the closing brace, after those already read. -/
def readMembers (steps : Nat) (before : Table Json) (r : Rest) :
    Except ReadFault (Table Json × Rest) :=
  match steps with
  | 0 => r.fail .expectingName
  | steps + 1 => do
    if r.text.head? != some '"' then r.fail .expectingName
    else
      let (key, rest) ← readString (r.skip 1)
      let rest := rest.skipSpace
      if rest.text.head? != some ':' then rest.fail .expectingColon
      else
        let (value, rest) ← readValue steps (rest.skip 1).skipSpace
        let rest := rest.skipSpace
        let members := before.set key value
        match rest.text with
        | '\x7d' :: _ => .ok (members, rest.skip 1)
        | ',' :: _ => readMembers steps members (rest.skip 1).skipSpace
        | _ => rest.fail .expectingComma

end

/-- Read a text that holds one datum. -/
def readChars (text : List Char) : Except ReadFault Json := do
  let start : Rest := ⟨0, text⟩
  if text.head? == some '\ufeff' then start.fail .byteOrderMark
  else
    let (datum, rest) ← readValue (2 * text.length + 2) start.skipSpace
    if rest.skipSpace.text.isEmpty then .ok datum else rest.skipSpace.fail .extraData

/-- Read a text that holds one datum. -/
def read (source : String) : Except ReadFault Json := readChars source.toList

end Manifest.Json
