import Manifest.CommandLine.Run

/-!
# The program

Gathers what a run may look at (the files that the command line and the settings name, and the
standard input if the request reads it), carries the request out, and writes what it left.
-/

namespace Manifest.Main

/-- What is stored at a path, as far as it can be seen. -/
def lookUp (path : String) : IO (Option Stored) := do
  try
    return some (.file (← IO.FS.readBinFile path).toList)
  catch
    | .inappropriateType .. => return some .folder
    | _ => return none

/-- The path that leads through some names. -/
def pathOf : List String → String
  | "/" :: names => "/" ++ "/".intercalate names
  | names => "/".intercalate names

/-- The ways to the places on the way to a path, and to the path. -/
def waysTo (path : String) : List (List String) :=
  let way := Files.names path
  (List.range way.length).map fun n ↦ way.take (n + 1)

/-- The files and folders at some ways. -/
def gather (ways : List (List String)) : IO Files := do
  let mut stored := []
  for way in ways do
    if let some found ← lookUp (pathOf way) then
      stored := stored ++ [(way, found)]
  return ⟨stored⟩

/-- All bytes of a stream. -/
partial def readAll (stream : IO.FS.Stream) (before : ByteArray) : IO ByteArray := do
  let chunk ← stream.read 65536
  if chunk.isEmpty then return before
  readAll stream (before ++ chunk)

/-- The text on the standard input. -/
def readInput : IO String := do
  let bytes ← readAll (← IO.getStdin) ByteArray.empty
  match Text.decodeUtf8 bytes.toList with
  | .ok text => return String.ofList (Text.unifyLineEnds text.toList)
  | .error fault => throw (IO.userError fault.message)

/-- Write the files that a run added. -/
def store (before after : Files) : IO Unit := do
  for entry in after.stored do
    if !before.stored.contains entry then
      match entry with
      | (way, .file bytes) => IO.FS.writeBinFile (pathOf way) ⟨bytes.toArray⟩
      | (_, .folder) => pure ()

end Manifest.Main

open Manifest

/-- Run the program on its arguments. -/
def main (arguments : List String) : IO UInt32 := do
  let home := (← IO.getEnv "HOME").getD ""
  let request := (CommandLine.Request.ofArguments arguments).toOption
  let named := (request.map CommandLine.Request.paths).getD []
  let places := Settings.paths ⟨⟨[]⟩, home⟩ ++ named
  let files ← Main.gather (places.flatMap Main.waysTo)
  let input ←
    if request.any CommandLine.Request.readsInput then Main.readInput else pure ""
  let report := CommandLine.run ⟨files, home⟩ input arguments
  IO.print report.output
  IO.eprint report.errors
  Main.store files report.files
  match report.interruption with
  | none => return report.exit.toUInt32
  | some interruption =>
    IO.eprint (interruption.message ++ "\n")
    return 1
