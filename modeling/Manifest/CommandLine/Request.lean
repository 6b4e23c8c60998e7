import Manifest.CommandLine.Help
import Manifest.Text.Quoted

/-!
# Requests

A command line asks for help or for a command. `Request.ofArguments` reads its words in order:
those before the command are options of the program, and all after it belong to the command, which
takes at most the name of a file. Help is given where its option stands, whatever comes after.
Words without a place are refused together once all else is in order.
-/

namespace Manifest.CommandLine

/-- What is wrong with the words of a level. -/
inductive Problem
  | ambiguous (ambiguity : Ambiguity)
  /-- An argument attached to an option that takes none. -/
  | ignoredArgument (switch : Switch) (text : List Char)
  | missingArgument (switch : Switch)
  | invalidChoice (text : String)
  | unrecognized (texts : List String)
deriving DecidableEq, Repr

/-- What a problem says. -/
def Problem.message : Problem → String
  | ambiguous ambiguity =>
    "ambiguous option: " ++ ambiguity.text ++ " could match " ++
      ", ".intercalate ambiguity.spellings
  | ignoredArgument switch text =>
    "argument " ++ switch.label ++ ": ignored explicit argument " ++
      Text.quote (String.ofList text)
  | missingArgument switch => "argument " ++ switch.label ++ ": expected one argument"
  | invalidChoice text =>
    "argument command: invalid choice: " ++ Text.quote text ++ " (choose from " ++
      ", ".intercalate (Command.all.map fun command ↦ Text.quote command.name) ++ ")"
  | unrecognized texts => "unrecognized arguments: " ++ " ".intercalate texts

/-- A command line that cannot be read, and the level at which it fails. -/
structure Misuse where
  level : Level
  problem : Problem
deriving DecidableEq, Repr

/-- The usage and the problem. -/
def Misuse.text (misuse : Misuse) : String :=
  misuse.level.usage ++ misuse.level.name ++ ": error: " ++ misuse.problem.message ++ "\n"

/-- Where the settings of a run are to be found. -/
inductive SettingsPlace
  | usual
  | named (path : String)
  /-- Asked for by an option that ended up without a path. -/
  | nowhere
deriving DecidableEq, Repr

/-- The place that an argument attached to the option names. Two dashes stand for no word at all,
here too. -/
def SettingsPlace.ofArgument (text : List Char) : SettingsPlace :=
  if text = ['-', '-'] then nowhere else named (String.ofList text)

/-- The path of a place, if it has one. -/
def SettingsPlace.path? : SettingsPlace → Option String
  | named path => some path
  | usual | nowhere => none

/-- The options of the program. -/
structure Options where
  verbose : Bool
  settings : SettingsPlace
deriving DecidableEq, Repr

/-- What a command line asks for. -/
inductive Request
  | help (level : Level)
  | perform (options : Options) (command : Command) (file : Option String)
deriving DecidableEq, Repr

/-- Letters attached to a short option are short options themselves; from the first that is none
they are an argument that nothing takes. -/
def checkLetters (switch : Switch) (known : Spellings) : List Char → Except Problem Unit
  | [] => .ok ()
  | letter :: rest =>
    if (known.switchOf? ['-', letter]).isSome then checkLetters switch known rest
    else .error (.ignoredArgument switch (letter :: rest))

/-- An option that takes no argument has none attached. -/
def checkFlag (switch : Switch) (known : Spellings) : Attachment → Except Problem Unit
  | .nothing => .ok ()
  | .argument text => .error (.ignoredArgument switch text)
  | .letters text => checkLetters switch known text

/-- What the words after a command ask for: help, or a file and the words that have no place. -/
inductive CommandWords
  | help
  | parts (file : Option String) (strays : List String)
deriving DecidableEq, Repr

/-- Put a word without a place in front of the others. -/
def CommandWords.withStray (text : String) : CommandWords → CommandWords
  | help => help
  | parts file strays => parts file (text :: strays)

/-- The words after a command whose file, if it takes one, is settled. -/
def settledWords (known : Spellings) : List MarkedWord → Except Problem CommandWords
  | [] => .ok (.parts none [])
  | ⟨_, .option switch attached⟩ :: _ => (checkFlag switch known attached).map fun _ ↦ .help
  | ⟨text, _⟩ :: rest => (settledWords known rest).map (.withStray text)

/-- The words after a command with its file settled to a word, which a divider may follow. -/
def wordsAfterFile (known : Spellings) (file : String) (words : List MarkedWord) :
    Except Problem CommandWords :=
  let words := match words with
    | ⟨_, .divider⟩ :: rest => rest
    | _ => words
  (settledWords known words).map fun
    | .help => .help
    | .parts _ strays => .parts (some file) strays

/-- The words after a command that takes a file. -/
def fileWords (known : Spellings) : List MarkedWord → Except Problem CommandWords
  | [] => .ok (.parts none [])
  | ⟨_, .option switch attached⟩ :: _ => (checkFlag switch known attached).map fun _ ↦ .help
  | ⟨text, .stray⟩ :: rest => (fileWords known rest).map (.withStray text)
  | ⟨text, .plain⟩ :: rest => wordsAfterFile known text rest
  | [⟨_, .divider⟩] => .ok (.parts none [])
  | ⟨_, .divider⟩ :: ⟨text, _⟩ :: rest => wordsAfterFile known text rest

/-- Read the words after a command, given the words before it that have no place. -/
def readCommand (options : Options) (strays : List String) (command : Command)
    (texts : List String) : Except Misuse Request :=
  let level := Level.command command
  let known := level.spellings
  match wordsOf known texts with
  | .error ambiguity => .error ⟨level, .ambiguous ambiguity⟩
  | .ok words =>
    match if command.takesFile then fileWords known words else settledWords known words with
    | .error problem => .error ⟨level, problem⟩
    | .ok .help => .ok (.help level)
    | .ok (.parts file more) =>
      if strays.isEmpty && more.isEmpty then .ok (.perform options command file)
      else .error ⟨.program, .unrecognized (strays ++ more)⟩

/-- Read the word that should be a command, and the words after it. -/
def readChoice (options : Options) (strays : List String) (text : String)
    (rest : List MarkedWord) :
    Except Misuse Request :=
  match Command.ofName? text with
  | none => .error ⟨.program, .invalidChoice text⟩
  | some command => readCommand options strays command (rest.map MarkedWord.text)

/-- The end of a command line without a command. -/
def readNoCommand (strays : List String) : Except Misuse Request :=
  if strays.isEmpty then .ok (.help .program) else .error ⟨.program, .unrecognized strays⟩

/-- Read the words of the program, given the options so far and the words that have no place. -/
def readProgram (options : Options) (strays : List String) :
    List MarkedWord → Except Misuse Request
  | [] => readNoCommand strays
  | ⟨text, .stray⟩ :: rest => readProgram options (strays ++ [text]) rest
  | ⟨text, .plain⟩ :: rest => readChoice options strays text rest
  | [⟨text, .divider⟩] => readNoCommand (strays ++ [text])
  | ⟨text, .divider⟩ :: rest => readChoice options strays text rest
  | ⟨_, .option .config (.argument text)⟩ :: rest =>
    readProgram { options with settings := .ofArgument text } strays rest
  | ⟨_, .option .config _⟩ :: ⟨text, .plain⟩ :: rest =>
    readProgram { options with settings := .named text } strays rest
  | ⟨_, .option .config _⟩ :: _ => .error ⟨.program, .missingArgument .config⟩
  | ⟨_, .option .help attached⟩ :: _ =>
    match checkFlag .help Level.program.spellings attached with
    | .error problem => .error ⟨.program, problem⟩
    | .ok _ => .ok (.help .program)
  | ⟨_, .option .verbose attached⟩ :: rest =>
    match checkFlag .verbose Level.program.spellings attached with
    | .error problem => .error ⟨.program, problem⟩
    | .ok _ => readProgram { options with verbose := true } strays rest

namespace Request

/-- What a command line asks for. -/
def ofArguments (texts : List String) : Except Misuse Request :=
  match wordsOf Level.program.spellings texts with
  | .error ambiguity => .error ⟨.program, .ambiguous ambiguity⟩
  | .ok words => readProgram ⟨false, .usual⟩ [] words

/-- The document of a request is read from the standard input. -/
def readsInput : Request → Bool
  | help _ => false
  | perform _ command file =>
    command.takesFile && (file == none || file == some "-")

/-- The paths that a request names. -/
def paths : Request → List String
  | help _ => []
  | perform options _ file => options.settings.path?.toList ++ file.toList

end Request
end Manifest.CommandLine
