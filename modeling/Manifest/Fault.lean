import Manifest.Call.Site
import Manifest.Document.Fault
import Manifest.Json.Reader

/-!
# Faults

All that can go wrong between a text and its evaluation. The faults of evaluation proper are an
unknown function and a function that failed, with its cause; a host may raise others of its own.
`isEvaluation` marks the faults that pass through a call unchanged, `isOwn` those that belong to
the pipeline and are reported to its caller as a value.
-/

namespace Manifest

/-- A fault of the pipeline or of a function that it called. -/
inductive Fault
  | document (fault : DocumentFault)
  /-- A name that no active function bears; a host need not say what the call stood for. -/
  | unknownFunction (kind : Option CallKind) (name : String)
  /-- A function failed for a cause of its own. -/
  | hostFailed (function : String) (cause : Fault)
  /-- A fault of evaluation that a host raises in its own words. -/
  | evaluation (message : String)
  /-- A fault of the pipeline that a host raises in its own words. -/
  | general (message : String)
  /-- Settings that cannot be read or used. -/
  | settings (message : String)
  /-- Parts that do not make a value. -/
  | invalid (report : Validation.Report)
  /-- A value was expected. -/
  | notValue (input : Datum)
  /-- A function that should answer a value without calls answered something else. -/
  | notResolved (answer : Datum)
  /-- A function that should answer a record without calls, or nothing, answered something else. -/
  | notRecord (answer : Datum)
  /-- Only a tree without calls has data. -/
  | unresolved (function : String)
  /-- The document is for another version than the current one. -/
  | versionMismatch (required : Single) (current : Double)
  | invalidData (v : Value)
  | invalidUrl (v : Value)
  | expectedObject (v : Value)
  | invalidEntry (id : String)
  | numeral (fault : Numeral.Fault)
  /-- No category of failure covers the fault. -/
  | uncategorized
  /-- An outcome that is no success was taken for one. -/
  | unwrapped (message : String)
  /-- A fault of a kind that only the host knows. -/
  | foreign (kind message : String)

namespace Fault

/-- What a fault says. -/
def message : Fault → String
  | document fault => fault.message
  | unknownFunction kind name => "invalid function " ++ (kind.map CallKind.sigil).getD "" ++ name
  | hostFailed function cause => "function " ++ function ++ " failed: " ++ message cause
  | evaluation text => text
  | general text => text
  | settings text => text
  | invalid report => report.message
  | notValue input => "not a Recon value: " ++ input.describe
  | notResolved answer => "returned " ++ answer.describe ++ ", expected a resolved value"
  | notRecord answer => "returned " ++ answer.describe ++ ", expected a record or None"
  | unresolved function => "cannot project unevaluated call to '" ++ function ++ "'"
  | versionMismatch required current =>
    "version mismatch: required " ++ String.ofList (required.convert .double).generalText ++
      ", we are on " ++ String.ofList current.generalText
  | invalidData v => "invalid data " ++ v.describe
  | invalidUrl v => "invalid url " ++ v.describe
  | expectedObject v => "expected object, found " ++ v.describe
  | invalidEntry id => "invalid entry " ++ id
  | numeral fault => fault.message
  | uncategorized => ""
  | unwrapped text => "Called unwrap() on Err: " ++ text
  | foreign _ text => text

/-- Faults of evaluation, which pass through a call as they are. -/
def isEvaluation : Fault → Bool
  | unknownFunction _ _ | hostFailed _ _ | evaluation _ => true
  | _ => false

/-- Faults of the pipeline itself. -/
def isOwn : Fault → Bool
  | document (.lex _) | document (.parse _) => true
  | unknownFunction _ _ | hostFailed _ _ | evaluation _ | general _ | settings _ => true
  | _ => false

end Fault
end Manifest
