import Manifest.Fault
import Manifest.Json.Writer

/-!
# Projecting values to plain data

A tree without calls projects to plain data: tags are dropped, floats become the shortest decimal
that reads back as the same single, and of several records with one identifier the last gives the
value, at the place of the first. A tree with calls does not project; the fault names the first
call in the order of writing.

The data of a tree are written as JSON text, with an indentation that has to fit a machine word.
-/

namespace Manifest

namespace Value

mutual

/-- The plain data of a tree. -/
def project : Value → Except Fault Json
  | number n => .ok (.integer n.toInt)
  | float x => .ok (.real x.shortDouble)
  | text s => .ok (.string s)
  | array items => (projectItems items).map .array
  | object entries => (projectEntries [] entries).map .object
  | call f _ => .error (.unresolved f)
  | typed _ x => project x

/-- The plain data of items. -/
def projectItems : List Value → Except Fault (List Json)
  | [] => .ok []
  | item :: rest =>
    match project item with
    | .error fault => .error fault
    | .ok first => (projectItems rest).map (first :: ·)

/-- The members that entries add to those there are. -/
def projectEntries (before : Table Json) : List Entry → Except Fault (Table Json)
  | [] => .ok before
  | .record id x :: rest =>
    match project x with
    | .error fault => .error fault
    | .ok data => projectEntries (before.set id data) rest
  | .call f _ :: _ => .error (.unresolved f)

end

end Value

namespace Datum

/-- The plain data of what should be a value. -/
def project : Datum → Except Fault Json
  | value v => v.project
  | other => .error (.notValue other)

/-- What stands in the way of the JSON text of what should be a value. -/
inductive WritingFault
  /-- It has no plain data. -/
  | projection (fault : Fault)
  /-- The indentation of its data does not fit a machine word. -/
  | indentation

/-- The JSON text of what should be a value, for an indentation or none. The indentation is looked
at last. -/
def toJson (indent : Option Int) (input : Datum) : Except WritingFault String :=
  match input.project with
  | .error fault => .error (.projection fault)
  | .ok data => if data.admits indent then .ok (data.text indent) else .error .indentation

/-- A value with plain data is written unless the indentation does not fit. -/
theorem toJson_of_project {v : Value} {data : Json} (projected : v.project = .ok data)
    (indent : Option Int) :
    toJson indent (.value v) =
      if data.admits indent then .ok (data.text indent) else .error .indentation := by
  rw [toJson, project, projected]

end Datum
end Manifest
