import Manifest.Fault
import Manifest.Files
import Manifest.Json.Writer
import Manifest.Settings.Basic

/-!
# Reading and writing settings

Settings are kept as a JSON object with a member for each setting, all of which may be left out.
`Settings.ofJson` checks every member and reports all issues: those of the settings in their order,
then the members that are none. `Settings.load` takes a file that is named, which must be there, or
else the first of the usual places that has one, or else the standard settings.
-/

namespace Manifest.Settings

open Manifest.Validation

/-- The name under which settings are checked. -/
def modelName : String := "InterpreterConfig"

/-- The names of the members, in the order of the settings. -/
def memberNames : List String := ["version", "value_functions", "record_functions", "indent"]

/-- The texts of a list, with an issue for each item that is none. -/
def checkNames (member : String) (index : Nat) : List Json → Except (List Issue) (List String)
  | [] => .ok []
  | item :: rest =>
    match readText item, checkNames member (index + 1) rest with
    | .ok name, .ok names => .ok (name :: names)
    | .ok _, .error issues => .error issues
    | .error cause, others =>
      let issue : Issue := ⟨[member, toString index], cause, .plain item⟩
      .error (issue :: match others with | .ok _ => [] | .error issues => issues)

/-- A member with a list of names, or with null, which is as good as no member. -/
def checkSelection (member : String) (data : Table Json) :
    Except (List Issue) (Option (List String)) :=
  match data.get? member with
  | none | some .null => .ok none
  | some (.array items) => (checkNames member 0 items).map some
  | some other => .error [⟨[member], .notList, .plain other⟩]

/-- A member read by a reader of its type, or what stands for a missing one. -/
def checkMember {α : Type} (member : String) (read : Json → Except Cause α) (missing : α)
    (data : Table Json) : Except (List Issue) α :=
  match data.get? member with
  | none => .ok missing
  | some input => (read input).mapError fun cause ↦ [⟨[member], cause, .plain input⟩]

/-- The issues of a check that failed. -/
def issuesOf {α : Type} : Except (List Issue) α → List Issue
  | .ok _ => []
  | .error issues => issues

/-- The issues of members that are no settings. -/
def strayIssues (data : Table Json) : List Issue :=
  (data.filter fun (name, _) ↦ !memberNames.contains name).map fun (name, input) ↦
    ⟨[name], .unexpected, .plain input⟩

/-- The settings that a datum holds, or all that is wrong with it. -/
def ofJson (input : Json) : Except Report Settings :=
  match input with
  | .object data =>
    let version := checkMember "version" readReal standard.version data
    let values := checkSelection "value_functions" data
    let records := checkSelection "record_functions" data
    let indent := checkMember "indent" readInteger standard.indent data
    match version, values, records, indent, strayIssues data with
    | .ok version, .ok values, .ok records, .ok indent, [] =>
      .ok ⟨version, values, records, indent⟩
    | _, _, _, _, stray =>
      .error ⟨modelName, issuesOf version ++ issuesOf values ++ issuesOf records ++
        issuesOf indent ++ stray⟩
  | other => .error ⟨modelName, [⟨[], .notModel modelName, .plain other⟩]⟩

/-- A list of names, or null for none. -/
def selectionJson : Option (List String) → Json
  | none => .null
  | some names => .array (names.map .string)

/-- The settings as data. -/
def toJson (settings : Settings) : Json :=
  .object
    [("version", .real settings.version),
      ("value_functions", selectionJson settings.valueFunctions),
      ("record_functions", selectionJson settings.recordFunctions),
      ("indent", .integer settings.indent)]

/-- The file of settings in the current folder. -/
def fileName : String := "recon.json"

/-- The places of settings, in the order in which they are looked for. -/
def paths (workspace : Workspace) : List String :=
  let home := (workspace.home.toList.reverse.dropWhile (· == '/')).reverse
  [fileName, String.ofList home ++ "/.recon/config.json"]

/-- Read the settings of a file. -/
def readFile (files : Files) (path : String) : Except Fault Settings :=
  match files.readText path with
  | .error fault => .error (.settings s!"cannot read config {path}: {fault.message path}")
  | .ok text =>
    match Json.read text with
    | .error fault => .error (.settings s!"cannot read config {path}: {fault.message text}")
    | .ok data =>
      match ofJson data with
      | .error report => .error (.settings s!"invalid config {path}: {report.message}")
      | .ok settings => .ok settings

/-- The settings of a named file, or those found in the usual places, or the standard ones. -/
def load (workspace : Workspace) (path : Option String) : Except Fault Settings :=
  match path.or ((paths workspace).find? workspace.files.exists?) with
  | none => .ok standard
  | some path => readFile workspace.files path

/-- The text of a file with the standard settings. -/
def standardText : String := Json.text (some 2) standard.toJson

/-- Write the standard settings to a file. -/
def writeStandard (files : Files) (path : String) : Except FileFault Files :=
  files.write path standardText.toUTF8.data.toList

end Manifest.Settings
