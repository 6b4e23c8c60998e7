import Manifest.Dispatch.Evaluation
import Manifest.Settings.Basic
import Manifest.Value.Construction

/-!
# Standard functions

Four functions are always in the library. `std_url` tags a text as an address, and `number` turns a
text of digits into a number; `meta-lang` refuses a document for another version, and `meta-eval`
selects the functions that the rest of the document may use. The last two answer nothing.

`meta-eval` takes its entries one by one, and an entry that was taken stays so when a later one
fails.
-/

namespace Manifest

/-- The functions that are always in the library. -/
inductive Standard
  | url
  | number
  | language
  | selection
deriving DecidableEq, Repr

namespace Standard

variable {F M : Type}

/-- Tag a text as an address. -/
def tagUrl (v : Value) : Except Fault Datum :=
  match v with
  | .text _ => .ok (.value (.typed "std_url" v))
  | _ => .error (.invalidUrl v)

/-- The number of a text of digits with blanks around it; a number is left as it is. -/
def toNumber (v : Value) : Except Fault Datum :=
  match v with
  | .number _ => .ok (.value v)
  | .text s =>
    let digits := Text.stripBy Text.isBlank s.toList
    if digits.isEmpty || !digits.all Text.isDigit then .error (.invalidData v)
    else match Numeral.readInteger (String.ofList digits) with
      | .error fault => .error (.numeral fault)
      | .ok n => ((Value.ofInt n).map Datum.value).mapError .invalid
  | _ => .error (.invalidData v)

/-- Refuse a document that is not for the current version. -/
def checkVersion (version : Double) (v : Value) : Except Fault Datum :=
  match v with
  | .float x =>
    if x.numEq (version.convert .single) then .ok (.plain .null)
    else .error (.versionMismatch x version)
  | _ => .error (.invalidData v)

/-- The texts of a list of values, all of which should be texts. -/
def textsOf : List Value → Except Fault (List String)
  | [] => .ok []
  | .text s :: rest => (textsOf rest).map (s :: ·)
  | other :: _ => .error (.invalidData other)

/-- The function names that a value lists: the texts of an array or the identifiers of an
object. -/
def functionNames (v : Value) : Except Fault (List String) :=
  match v with
  | .array items => textsOf items
  | .object entries => .ok ((Entry.records entries).map Prod.fst)
  | _ => .error (.invalidData v)

/-- The kind of call whose functions an entry selects. -/
def selectedKind? (id : String) : Option CallKind :=
  if id = "value" then some .value
  else if id = "record" then some .record
  else none

/-- Take the selections of a list of records one after the other. -/
def selectAll : List (String × Value) → DispatchState F M →
    Except Fault Unit × DispatchState F M
  | [], s => (.ok (), s)
  | (id, v) :: rest, s =>
    match selectedKind? id with
    | none => (.error (.invalidEntry id), s)
    | some kind =>
      match (functionNames v).bind (s.select kind) with
      | .error fault => (.error fault, s)
      | .ok s => selectAll rest s

/-- Select the functions that an object names. -/
def selectFunctions (v : Value) (s : DispatchState F M) :
    Except Fault Datum × DispatchState F M :=
  match v with
  | .object entries =>
    let (outcome, s) := selectAll (Entry.records entries) s
    (outcome.map fun _ ↦ .plain .null, s)
  | _ => (.error (.expectedObject v), s)

/-- What a standard function does. -/
def call (function : Standard) (v : Value) (s : DispatchState F M) :
    Except Fault Datum × DispatchState F M :=
  match function with
  | url => (tagUrl v, s)
  | number => (toNumber v, s)
  | language => (checkVersion s.version v, s)
  | selection => selectFunctions v s

end Standard

/-- A function of the library: a standard one or one of the host's. -/
inductive Callee (H : Type)
  | standard (function : Standard)
  | host (function : H)
deriving DecidableEq, Repr

namespace Callee

variable {H M : Type}

/-- How library functions act, given how the host's do. -/
def act (host : H → Value → DispatchState (Callee H) M →
    Except Fault Datum × DispatchState (Callee H) M) : Host (Callee H) M
  | standard function => function.call
  | .host function => host function

/-- The standard functions under their names. -/
def standardTables : FunctionTables (Callee H) :=
  { value := [("std_url", standard .url), ("number", standard .number)]
    record := [("meta-lang", standard .language), ("meta-eval", standard .selection)] }

/-- The standard functions and those of a host, which replace standard ones of the same name. -/
def library (values records : Table H) : FunctionTables (Callee H) :=
  { value := standardTables.value.update (values.map fun (name, f) ↦ (name, .host f))
    record := standardTables.record.update (records.map fun (name, f) ↦ (name, .host f)) }

end Callee

namespace DispatchState

variable {F M : Type}

/-- Make the functions that the settings name active; a name that the library lacks is a fault of
the settings. -/
def configure (s : DispatchState F M) (settings : Settings) (kind : CallKind) :
    Except Fault (DispatchState F M) :=
  match settings.selection kind with
  | none => .ok s
  | some names =>
    match s.select kind names with
    | .error (.unknownFunction (some kind) name) =>
      .error (.settings ("unknown function " ++ kind.sigil ++ name ++ " in config"))
    | outcome => outcome

/-- The state for settings and for the functions of a host. -/
def build {H : Type} (settings : Settings) (values records : Table H) (memory : M) :
    Except Fault (DispatchState (Callee H) M) :=
  let start := ofLibrary (Callee.library values records) settings.version memory
  (start.configure settings .value).bind fun s ↦ s.configure settings .record

end DispatchState
end Manifest
