import Manifest.Validation

/-!
# Building values from unchecked parts

A host builds values from parts of any kind. Each function of this module checks the parts that one
kind of value needs and either gives the value or reports every part that does not fit. A part that
should be a value but is something else is at fault once for each kind of value that it might have
been.
-/

namespace Manifest.Value

open Manifest.Validation

/-- The names of the kinds of value. -/
def kindNames : List String := ["Number", "Float", "String", "Object", "Array", "Call", "Typed"]

/-- The issues of a datum that should have been of one of several kinds. -/
def noneOf (kinds : List String) (path : List String) (input : Datum) : List Issue :=
  kinds.map fun kind ↦ ⟨path ++ [kind], .notModel kind, input⟩

/-- A part that should be a value. -/
def checkValue (path : List String) : Datum → Except (List Issue) Value
  | .value v => .ok v
  | other => .error (noneOf kindNames path other)

/-- A part that should be an entry: a record or a call. -/
def checkEntry (path : List String) : Datum → Except (List Issue) Entry
  | .record id v => .ok (.record id v)
  | .value (.call f x) => .ok (.call f x)
  | other => .error (noneOf ["Record", "Call"] path other)

/-- A part that should be a text. -/
def checkText (path : List String) (input : Json) : Except (List Issue) String :=
  (readText input).mapError fun cause ↦ [⟨path, cause, .plain input⟩]

/-- Check every part of a list, which stands under a name, and gather all issues. -/
def checkAll {α : Type} (check : List String → Datum → Except (List Issue) α) (name : String)
    (index : Nat) : List Datum → Except (List Issue) (List α)
  | [] => .ok []
  | part :: rest =>
    match check [name, toString index] part, checkAll check name (index + 1) rest with
    | .ok x, .ok xs => .ok (x :: xs)
    | .ok _, .error issues => .error issues
    | .error issues, .ok _ => .error issues
    | .error first, .error others => .error (first ++ others)

/-- Check a text and a value, and gather the issues of both. -/
def checkLabelled (name : String) (label : Json) (part : Datum) :
    Except (List Issue) (String × Value) :=
  match checkText [name] label, checkValue ["value"] part with
  | .ok s, .ok v => .ok (s, v)
  | .ok _, .error issues => .error issues
  | .error issues, .ok _ => .error issues
  | .error first, .error others => .error (first ++ others)

/-- Report issues under the name of what was to be built. -/
def report {α : Type} (title : String) (checked : Except (List Issue) α) : Except Report α :=
  checked.mapError fun issues ↦ ⟨title, issues⟩

/-- A number within 32 bits. -/
def ofInt (n : Int) : Except Report Value :=
  if inRange n then .ok (number (Int32.ofInt n))
  else .error ⟨"Number", [⟨["value"], .outOfRange n, .plain (.integer n)⟩]⟩

/-- A number from a datum that may stand for one. -/
def makeNumber (input : Json) : Except Report Value :=
  report "Number" <| match readInteger input with
    | .error cause => .error [⟨["value"], cause, .plain input⟩]
    | .ok n =>
      if inRange n then .ok (number (Int32.ofInt n))
      else .error [⟨["value"], .outOfRange n, .plain input⟩]

/-- A text from a datum that should be one. -/
def makeText (input : Json) : Except Report Value :=
  (report "String" (checkText ["value"] input)).map text

/-- An array of parts that should be values. -/
def makeArray (parts : List Datum) : Except Report Value :=
  (report "Array" (checkAll checkValue "items" 0 parts)).map array

/-- An object of parts that should be entries. -/
def makeObject (parts : List Datum) : Except Report Value :=
  (report "Object" (checkAll checkEntry "entries" 0 parts)).map object

/-- A call of a function on a part that should be a value. -/
def makeCall (function : Json) (argument : Datum) : Except Report Value :=
  (report "Call" (checkLabelled "function" function argument)).map fun (f, v) ↦ call f v

/-- A tagged part that should be a value. -/
def makeTyped (kind : Json) (part : Datum) : Except Report Value :=
  (report "Typed" (checkLabelled "kind" kind part)).map fun (k, v) ↦ typed k v

/-- A record of a part that should be a value. -/
def makeRecord (id : Json) (part : Datum) : Except Report Datum :=
  (report "Record" (checkLabelled "id" id part)).map fun (name, v) ↦ .record name v

end Manifest.Value
