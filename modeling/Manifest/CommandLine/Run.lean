import Manifest.CommandLine.Request
import Manifest.Load
import Manifest.Settings.Reading
import Manifest.Value.Projection

/-!
# Running a request

A request is carried out in a workspace, with a text on the standard input. `Report` is all that a
run leaves: the exit code, what was written to the two outputs, the files, and the fault that broke
the run off, if there was one that no message covers.

A command that reads a document first takes the settings, and looks at the document only when they
are in order.
-/

namespace Manifest.CommandLine

/-- What breaks a run off without a message. -/
inductive Interruption
  | file (path : String) (fault : FileFault)
  /-- The option for the settings has no path. -/
  | noSettingsPath
  /-- The indentation of data does not fit a machine word. -/
  | indentation
  | fault (fault : Fault)

/-- What an interruption says. -/
def Interruption.message : Interruption → String
  | .file path cause => cause.message path
  | .noSettingsPath => "expected str, bytes or os.PathLike object, not list"
  | .indentation => "cannot fit 'int' into an index-sized integer"
  | .fault cause => cause.message

/-- All that a run leaves. -/
structure Report where
  exit : Nat
  interruption : Option Interruption
  output : String
  errors : String
  files : Files

/-- A message for the user. -/
def notice (message : String) : String := "\x1b[92m\x1b[1mINFO:\x1b[0m " ++ message ++ "\n"

/-- A message for whoever asked for verbose output. -/
def verboseNotice (options : Options) (message : String) : String :=
  if options.verbose then "\x1b[94mDEBUG:\x1b[0m " ++ message ++ "\n" else ""

/-- The state of a run: no functions but the standard ones, which keep nothing. -/
abbrev StandardState := DispatchState (Callee Empty) Unit

/-- The standard functions, with no others. -/
def standardHost : Host (Callee Empty) Unit := Callee.act fun function _ _ ↦ nomatch function

/-- A text at the right of a field. -/
def alignRight (width : Nat) (text : String) : String :=
  String.ofList (List.replicate (width - text.length) ' ') ++ text

/-- A text at the left of a field. -/
def alignLeft (width : Nat) (text : String) : String :=
  text ++ String.ofList (List.replicate (width - text.length) ' ')

/-- A token in a listing: its span, the name of its kind, and its lexeme between quotes. -/
def tokenLine (token : Token) : String :=
  alignRight 12 token.span.text ++ "  " ++ alignLeft 14 token.kind.name ++ " " ++
    Text.quote token.lexeme ++ "\n"

/-- A call in a listing: its mark and name, where it stands, and whether it is unknown. -/
def siteLine (missing : List CallSite) (site : CallSite) : String :=
  site.kind.sigil ++ site.name ++ "  at " ++
    (if site.path.isEmpty then "<root>" else site.path) ++
    (if missing.contains site then "  (unknown)" else "") ++ "\n"

/-- How a run ended and what it wrote; it left the files as they are. -/
structure Ending where
  exit : Nat
  interruption : Option Interruption
  output : String
  errors : String

namespace Ending

/-- A run that went well. -/
def done (output errors : String) : Ending := ⟨0, none, output, errors⟩

/-- A run that failed with a message. -/
def failed (errors : String) : Ending := ⟨1, none, "", errors⟩

/-- A run broken off. -/
def broken (interruption : Interruption) (errors : String) : Ending :=
  ⟨0, some interruption, "", errors⟩

/-- The same end with something written before. -/
def after (errors : String) (ending : Ending) : Ending :=
  { ending with errors := errors ++ ending.errors }

end Ending

/-- The settings and the state that a command starts with, or the end of a run without them. -/
def prepare (workspace : Workspace) (options : Options) :
    Except Ending (Settings × StandardState) :=
  if options.settings = .nowhere then .error (.broken .noSettingsPath "")
  else
    let found : Except Fault (Settings × StandardState) := do
      let settings ← Settings.load workspace options.settings.path?
      let state ← DispatchState.build settings [] [] ()
      pure (settings, state)
    found.mapError fun fault ↦ .failed ("Error: " ++ fault.message ++ "\n")

/-- The text of the document, or the end of a run that lacks one. -/
def readSource (files : Files) (input : String) (file : Option String) : Except Ending String :=
  let path := file.getD "-"
  if path = "-" then .ok input
  else if !files.exists? path then .error (.failed ("Error: File '" ++ path ++ "' not found.\n"))
  else (files.readText path).mapError fun fault ↦ .broken (.file path fault) ""

/-- What breaks a run off when a value cannot be written. -/
def Interruption.ofWriting : Datum.WritingFault → Interruption
  | .projection cause => .fault cause
  | .indentation => .indentation

/-- A value as data, or what breaks its writing off. -/
def writeData (indent : Option Int) (input : Datum) : Except Interruption String :=
  (input.toJson indent).mapError .ofWriting

/-- Evaluate a document and show it, in full and as data. What is shown in full stands when the
writing of the data breaks off. -/
def runDocument (options : Options) (settings : Settings) (state : StandardState)
    (source : String) : Ending :=
  let loaded := state.load standardHost source
  let log := String.join (loaded.log.map fun event ↦ verboseNotice options event.message)
  match loaded.outcome with
  | .error fault => .broken (.fault fault) log
  | .ok (.error failure) => .failed (log ++ failure.text ++ "\n")
  | .ok (.ok v) =>
    match writeData settings.indent (.value v) with
    | .error interruption => ⟨0, some interruption, v.describe ++ "\n", log⟩
    | .ok data => .done (v.describe ++ "\n" ++ data ++ "\n") log

/-- The end of a run on a text that is no document. -/
def refuse (source : String) (fault : DocumentFault) : Ending :=
  match fault.placed? with
  | some (reason, span) => .failed (Diagnostic.render (some source) span (some reason) ++ "\n")
  | none => .broken (.fault (.document fault)) ""

/-- List the tokens of a text. -/
def listTokens (source : String) : Ending :=
  match Token.scan source with
  | .error fault => refuse source (.lex fault)
  | .ok tokens => .done (String.join (tokens.map tokenLine)) ""

/-- List the calls of a document, with a mark on those that no active function answers. -/
def listCalls (state : StandardState) (source : String) : Ending :=
  match Document.ofSource source with
  | .error fault => refuse source fault
  | .ok document =>
    let sites := document.sites
    let missing := state.missing document
    .done (String.join (sites.map (siteLine missing)))
      (notice s!"🔍 {sites.length} call site(s)" ++
        if missing.isEmpty then "" else
          notice s!"⚠️  {missing.length} call(s) not resolvable with the current configuration")

/-- Carry out a command that reads a document. -/
def withDocument (workspace : Workspace) (input : String) (options : Options)
    (file : Option String) (command : Settings → StandardState → String → Ending) : Ending :=
  match prepare workspace options with
  | .error ending => ending
  | .ok (settings, state) =>
    let version := "Language version " ++ String.ofList settings.version.text
    .after (verboseNotice options version) <|
      match readSource workspace.files input file with
      | .error ending => ending
      | .ok source => command settings state source

/-- Write the standard settings, unless there is something in their place. -/
def initialise (files : Files) : Report :=
  if files.exists? Settings.fileName then
    ⟨0, none, "", notice (Settings.fileName ++ " already exists, leaving it untouched."), files⟩
  else match Settings.writeStandard files Settings.fileName with
    | .error fault => ⟨0, some (.file Settings.fileName fault), "", "", files⟩
    | .ok files =>
      ⟨0, none, "", notice ("Wrote default settings to " ++ Settings.fileName ++ "."), files⟩

/-- The end of a run that left the files as they were. -/
def Ending.report (files : Files) (ending : Ending) : Report :=
  ⟨ending.exit, ending.interruption, ending.output, ending.errors, files⟩

/-- Carry out a request. -/
def Request.run (workspace : Workspace) (input : String) : Request → Report
  | .help level => (Ending.done level.help "").report workspace.files
  | .perform options .run file =>
    (withDocument workspace input options file (runDocument options)).report workspace.files
  | .perform options .tokens file =>
    (withDocument workspace input options file fun _ _ ↦ listTokens).report workspace.files
  | .perform options .analyse file =>
    (withDocument workspace input options file fun _ ↦ listCalls).report workspace.files
  | .perform _ .init _ => initialise workspace.files

/-- Run the program on a command line. -/
def run (workspace : Workspace) (input : String) (arguments : List String) : Report :=
  match Request.ofArguments arguments with
  | .error misuse => ⟨2, none, "", misuse.text, workspace.files⟩
  | .ok request => request.run workspace input

end Manifest.CommandLine
