import Manifest.Number.Literal
import Manifest.Text.Abridged
import Manifest.Value.Description

/-!
# Validation

Data from outside is checked field by field. A `Report` names the model that was checked and lists
every issue found, each with the place of the datum at fault, what is wrong with it, and the datum
itself, abridged. The readers of this module turn a datum into an integer, a floating point number
or a text in the lenient way of settings: a text that spells a number is taken for the number, a
truth value is one or zero, and a floating point number without a fraction is an integer.
-/

namespace Manifest

namespace Validation

/-- What is wrong with a datum. -/
inductive Cause
  | notInteger
  | integerText
  | integerTextTooLong
  | fractional
  | notFinite
  /-- An integer outside the 32-bit range. -/
  | outOfRange (n : Int)
  | notReal
  | realText
  | notText
  | notList
  | unexpected
  /-- Neither an object nor an instance of the named model. -/
  | notModel (name : String)
deriving DecidableEq, Repr

/-- What a cause says. -/
def Cause.message : Cause → String
  | notInteger => "Input should be a valid integer"
  | integerText => "Input should be a valid integer, unable to parse string as an integer"
  | integerTextTooLong => "Unable to parse input string as an integer, exceeded maximum size"
  | fractional => "Input should be a valid integer, got a number with a fractional part"
  | notFinite => "Input should be a finite number"
  | outOfRange n =>
    "Value error, " ++ String.ofList (Numeral.ofInt n) ++
      " does not fit in a 32-bit signed integer"
  | notReal => "Input should be a valid number"
  | realText => "Input should be a valid number, unable to parse string as a number"
  | notText => "Input should be a valid string"
  | notList => "Input should be a valid list"
  | unexpected => "Extra inputs are not permitted"
  | notModel name => "Input should be a valid dictionary or instance of " ++ name

/-- The code of a cause. -/
def Cause.code : Cause → String
  | notInteger => "int_type"
  | integerText => "int_parsing"
  | integerTextTooLong => "int_parsing_size"
  | fractional => "int_from_float"
  | notFinite => "finite_number"
  | outOfRange _ => "value_error"
  | notReal => "float_type"
  | realText => "float_parsing"
  | notText => "string_type"
  | notList => "list_type"
  | unexpected => "extra_forbidden"
  | notModel _ => "model_type"

/-- Something wrong with one datum. -/
structure Issue where
  /-- The way from the checked model to the datum. -/
  path : List String
  cause : Cause
  input : Datum

/-- A step of a way to a datum. A name with a point in it stands between backquotes, since points
divide the steps. -/
def stepText (name : String) : String :=
  if name.toList.contains '.' then "\x60" ++ name ++ "\x60" else name

/-- An issue in one or two lines: the way to the datum, unless it is the whole, then what is
wrong. -/
def Issue.message (issue : Issue) : String :=
  (if issue.path.isEmpty then "" else "\n" ++ ".".intercalate (issue.path.map stepText)) ++
    "\n  " ++ issue.cause.message ++
    " [type=" ++ issue.cause.code ++
    ", input_value=" ++ Text.abridge issue.input.describe ++
    ", input_type=" ++ issue.input.typeName ++ "]"

/-- All that is wrong with a model. -/
structure Report where
  title : String
  issues : List Issue

/-- The number of issues, then each of them. -/
def Report.message (report : Report) : String :=
  let count := report.issues.length
  s!"{count} validation error" ++ (if count = 1 then "" else "s") ++ " for " ++ report.title ++
    String.join (report.issues.map Issue.message)

/-- Read an integer: an integer, a truth value, a number without fraction, or a text that spells
one. A number without fraction is refused from 2^63 on, on either side of zero. -/
def readInteger : Json → Except Cause Int
  | .integer n => .ok n
  | .bool b => .ok (if b then 1 else 0)
  | .real x =>
    if !x.isFinite then .error .notFinite
    else match x.toInt? with
      | none => .error .fractional
      | some n =>
        if n.natAbs < 0x8000000000000000 then .ok n else .error .integerTextTooLong
  | .string s =>
    match Numeral.readLooseInteger s with
    | .ok n => .ok n
    | .error (.tooLong _) => .error .integerTextTooLong
    | .error _ => .error .integerText
  | _ => .error .notInteger

/-- Read a floating point number: a number, a truth value, or a text that spells one. An integer
past the range of the format is refused. -/
def readReal : Json → Except Cause Double
  | .real x => .ok x
  | .integer n =>
    let x : Double := .ofInt n
    if x.isFinite then .ok x else .error .notReal
  | .bool b => .ok (.ofInt (if b then 1 else 0))
  | .string s =>
    match readLooseReal? s with
    | some x => .ok x
    | none => .error .realText
  | _ => .error .notReal

/-- Read a text, which nothing else is taken for. -/
def readText : Json → Except Cause String
  | .string s => .ok s
  | _ => .error .notText

/-- An integer that fits 32 bits. -/
def inRange (n : Int) : Bool := -0x80000000 ≤ n && n ≤ 0x7fffffff

end Validation
end Manifest
