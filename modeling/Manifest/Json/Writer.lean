import Manifest.Json.Basic
import Manifest.Number.Notation
import Manifest.Text.Quoted

/-!
# Writing plain data

`Json.write` lays a datum out as JSON text, either on one line or with every part of a container on
a line of its own, indented by its depth. Texts keep their characters but for the quote, the
backslash and the control characters, and a floating point number is written so that it reads back
as the same number. Numbers that are not finite are written as words.
-/

namespace Manifest.Json

/-- How the parts of a container are set apart. -/
inductive Spacing
  /-- All on one line. -/
  | inline
  /-- A line for each part, indented by so many spaces for each level. -/
  | lines (width : Nat)
deriving DecidableEq, Repr

/-- No indentation asked for is one line; a negative one is none at all. -/
def Spacing.ofIndent : Option Int → Spacing
  | none => inline
  | some width => lines width.toNat

/-- An indentation has to fit a machine word, even where there is nothing to indent. -/
def Spacing.admits : Option Int → Bool
  | none => true
  | some width => decide (-0x8000000000000000 ≤ width ∧ width < 0x8000000000000000)

/-- What stands before a part at a level, and before the end of the container around it. -/
def Spacing.lineStart (spacing : Spacing) (level : Nat) : List Char :=
  match spacing with
  | inline => []
  | lines width => '\n' :: List.replicate (width * level) ' '

/-- What stands between two parts at a level. -/
def Spacing.between (spacing : Spacing) (level : Nat) : List Char :=
  match spacing with
  | inline => [',', ' ']
  | lines _ => ',' :: spacing.lineStart level

/-- A character as it stands in a text. -/
def escape (c : Char) : List Char :=
  if c = '"' ∨ c = '\\' then ['\\', c]
  else if c = '\n' then ['\\', 'n']
  else if c = '\r' then ['\\', 'r']
  else if c = '\t' then ['\\', 't']
  else if c = '\x08' then ['\\', 'b']
  else if c = '\x0c' then ['\\', 'f']
  else if c.toNat < 0x20 then '\\' :: 'u' :: Text.hexDigits 4 c.toNat
  else [c]

/-- A text between quotes. -/
def writeString (s : String) : List Char := '"' :: (s.toList.flatMap escape ++ ['"'])

/-- A floating point number; infinities and not a number are words. -/
def writeReal : Double → List Char
  | .nan => "NaN".toList
  | .signed negative rank h =>
    if rank = Format.double.infinity then
      (if negative then ['-'] else []) ++ "Infinity".toList
    else Binary.text (.signed negative rank h)

mutual

/-- The text of a datum that stands at a level. -/
def write (spacing : Spacing) (level : Nat) : Json → List Char
  | null => "null".toList
  | bool b => if b then "true".toList else "false".toList
  | integer n => Numeral.ofInt n
  | real x => writeReal x
  | string s => writeString s
  | array [] => ['[', ']']
  | array (first :: rest) =>
    '[' :: (spacing.lineStart (level + 1) ++ write spacing (level + 1) first ++
      writeItems spacing (level + 1) rest ++ spacing.lineStart level ++ [']'])
  | object [] => ['\x7b', '\x7d']
  | object ((key, first) :: rest) =>
    '\x7b' :: (spacing.lineStart (level + 1) ++ writeString key ++ [':', ' '] ++
      write spacing (level + 1) first ++ writeMembers spacing (level + 1) rest ++
      spacing.lineStart level ++ ['\x7d'])

/-- Items after the first. -/
def writeItems (spacing : Spacing) (level : Nat) : List Json → List Char
  | [] => []
  | item :: rest =>
    spacing.between level ++ write spacing level item ++ writeItems spacing level rest

/-- Members after the first. -/
def writeMembers (spacing : Spacing) (level : Nat) : List (String × Json) → List Char
  | [] => []
  | (key, value) :: rest =>
    spacing.between level ++ writeString key ++ [':', ' '] ++ write spacing level value ++
      writeMembers spacing level rest

end

/-- A datum can be written with an indentation that fits. A text alone is written with any, since
nothing in it is set apart. -/
def admits (indent : Option Int) : Json → Bool
  | string _ => true
  | _ => Spacing.admits indent

/-- The JSON text of a datum, for an indentation or none. -/
def text (indent : Option Int) (datum : Json) : String :=
  String.ofList (write (.ofIndent indent) 0 datum)

end Manifest.Json
