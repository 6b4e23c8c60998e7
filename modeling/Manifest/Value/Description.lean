import Manifest.Value.Basic
import Manifest.Json.Description

/-!
# Describing values

`Value.describe` shows a value by its kind and its parts, named. A list of parts stands in
parentheses, with a comma after a part that is alone. A `Datum` is whatever a host function may
answer: a value, a record, or plain data.
-/

namespace Manifest

/-- Parts in parentheses; a part alone has a comma after it. -/
def describeParts : List String → String
  | [part] => "(" ++ part ++ ",)"
  | parts => "(" ++ ", ".intercalate parts ++ ")"

namespace Value

/-- The name of a value's kind. -/
def kindName : Value → String
  | number _ => "Number"
  | float _ => "Float"
  | text _ => "String"
  | array _ => "Array"
  | object _ => "Object"
  | call _ _ => "Call"
  | typed _ _ => "Typed"

mutual

/-- A value as messages show it. -/
def describe : Value → String
  | number n => "Number(value=" ++ String.ofList (Numeral.ofInt n.toInt) ++ ")"
  | float x => "Float(value=" ++ String.ofList (x.convert .double).text ++ ")"
  | text s => "String(value=" ++ Text.quote s ++ ")"
  | array items => "Array(items=" ++ describeParts (describeItems items) ++ ")"
  | object entries => "Object(entries=" ++ describeParts (describeEntries entries) ++ ")"
  | call f x => "Call(function=" ++ Text.quote f ++ ", value=" ++ describe x ++ ")"
  | typed k x => "Typed(kind=" ++ Text.quote k ++ ", value=" ++ describe x ++ ")"

/-- The descriptions of items. -/
def describeItems : List Value → List String
  | [] => []
  | item :: rest => describe item :: describeItems rest

/-- The descriptions of entries. -/
def describeEntries : List Entry → List String
  | [] => []
  | .record id x :: rest =>
    ("Record(id=" ++ Text.quote id ++ ", value=" ++ describe x ++ ")") :: describeEntries rest
  | .call f x :: rest =>
    ("Call(function=" ++ Text.quote f ++ ", value=" ++ describe x ++ ")") :: describeEntries rest

end

end Value

/-- What a host function may answer or what may be given where a value is expected. Objects of
other types, whose own code would run when they are checked or shown, are left out. -/
inductive Datum
  | value (v : Value)
  | record (id : String) (value : Value)
  | plain (data : Json)

namespace Datum

/-- The answer that is nothing at all. -/
instance : Inhabited Datum := ⟨.plain .null⟩

/-- An entry as a datum. -/
def ofEntry : Entry → Datum
  | .record id x => record id x
  | .call f x => value (.call f x)

/-- The name of a datum's type. -/
def typeName : Datum → String
  | value v => v.kindName
  | record _ _ => "Record"
  | plain data => data.typeName

/-- A datum as messages show it. -/
def describe : Datum → String
  | value v => v.describe
  | record id v => "Record(id=" ++ Text.quote id ++ ", value=" ++ v.describe ++ ")"
  | plain data => data.describe

end Datum
end Manifest
