import Manifest.CommandLine.Word

/-!
# The commands and their help

The commands of the program, and for each place of a command line (before the command, or after it)
the options known there, the usage in one line, and the help in full.
-/

namespace Manifest.CommandLine

/-- A command of the program. -/
inductive Command
  /-- Evaluate a document and show its data. -/
  | run
  /-- List the tokens of a document. -/
  | tokens
  /-- List the calls of a document. -/
  | analyse
  /-- Write a file of settings. -/
  | init
deriving DecidableEq, Repr

namespace Command

/-- All commands, in the order of the help. -/
def all : List Command := [run, tokens, analyse, init]

/-- The word for a command. -/
def name : Command → String
  | run => "run"
  | tokens => "tokens"
  | analyse => "analyse"
  | init => "init"

/-- The command of a word. -/
def ofName? (text : String) : Option Command := all.find? fun command ↦ command.name == text

/-- A command that reads a document takes the name of its file. -/
def takesFile : Command → Bool
  | init => false
  | run | tokens | analyse => true

/-- Every command is found by its name. -/
theorem ofName?_name (command : Command) : ofName? command.name = some command := by
  cases command <;> decide

end Command

/-- A place of a command line: before the command or after it. -/
inductive Level
  | program
  | command (command : Command)
deriving DecidableEq, Repr

namespace Level

/-- What a level is called in messages. -/
def name : Level → String
  | program => "recon"
  | command c => "recon " ++ c.name

/-- The options known at a level. -/
def spellings : Level → Spellings
  | program => [("-h", .help), ("--help", .help), ("--verbose", .verbose), ("--config", .config)]
  | command _ => [("-h", .help), ("--help", .help)]

/-- The usage of a level. -/
def usage : Level → String
  | program =>
    "usage: recon [-h] [--verbose] [--config CONFIG] \x7brun,tokens,analyse,init\x7d ...\n"
  | command c =>
    "usage: recon " ++ c.name ++ " [-h]" ++ (if c.takesFile then " [filename]" else "") ++ "\n"

/-- The help on the options of a command. -/
def commandOptions : String :=
  "\noptions:\n" ++
  "  -h, --help  show this help message and exit\n"

/-- The help on the file of a command. -/
def commandFile : Command → String
  | .run =>
    "\npositional arguments:\n" ++
    "  filename    File to run (default: read from stdin)\n"
  | .tokens | .analyse =>
    "\npositional arguments:\n" ++
    "  filename\n"
  | .init => ""

/-- The help on what follows the usage of a level. -/
def details : Level → String
  | program =>
    "\nRecon CLI\n" ++
    "\npositional arguments:\n" ++
    "  \x7brun,tokens,analyse,init\x7d\n" ++
    "    run                 Evaluate a document and print it as JSON\n" ++
    "    tokens              Print the token stream\n" ++
    "    analyse             List the functions a document calls\n" ++
    "    init                Write a default recon.json\n" ++
    "\noptions:\n" ++
    "  -h, --help            show this help message and exit\n" ++
    "  --verbose             Enable verbose output (sent to stderr)\n" ++
    "  --config CONFIG       Config file (default: recon.json, then\n" ++
    "                        ~/.recon/config.json)\n"
  | command c => commandFile c ++ commandOptions

/-- The help of a level. -/
def help (level : Level) : String := level.usage ++ level.details

end Level
end Manifest.CommandLine
