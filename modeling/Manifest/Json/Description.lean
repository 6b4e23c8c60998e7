import Manifest.Json.Basic
import Manifest.Number.Notation
import Manifest.Text.Quoted

/-!
# Describing plain data

Messages show a datum by `describe` and its type by `typeName`. A description differs from JSON
text in its words for null, the truth values and numbers that are not finite, and in its quotes.
-/

namespace Manifest.Json

/-- The name of a datum's type. -/
def typeName : Json → String
  | null => "NoneType"
  | bool _ => "bool"
  | integer _ => "int"
  | real _ => "float"
  | string _ => "str"
  | array _ => "list"
  | object _ => "dict"

mutual

/-- A datum as messages show it. -/
def describe : Json → String
  | null => "None"
  | bool b => if b then "True" else "False"
  | integer n => String.ofList (Numeral.ofInt n)
  | real x => String.ofList x.text
  | string s => Text.quote s
  | array items => "[" ++ ", ".intercalate (describeItems items) ++ "]"
  | object members => "\x7b" ++ ", ".intercalate (describeMembers members) ++ "\x7d"

/-- The descriptions of items. -/
def describeItems : List Json → List String
  | [] => []
  | item :: rest => describe item :: describeItems rest

/-- The descriptions of members, key before value. -/
def describeMembers : List (String × Json) → List String
  | [] => []
  | (key, value) :: rest => (Text.quote key ++ ": " ++ describe value) :: describeMembers rest

end

end Manifest.Json
