import Manifest.Text.Abridged
import Manifest.Text.Line
import Manifest.Text.Utf8

/-!
# Files

A finite tree of files, as far as a run of the program looks at it. A path is a sequence of names;
the folders above a stored path are there with it. Looking a path up gives what is stored there or
the reason why nothing is. Text files are strict UTF-8 and have their line ends unified.
-/

namespace Manifest

/-- What is stored at a path. -/
inductive Stored
  | file (bytes : List UInt8)
  | folder
deriving DecidableEq, Repr

/-- Why a file cannot be read or written. -/
inductive FileFault
  | missing
  | folder
  /-- A name on the way is that of a file. -/
  | notFolder
  /-- A name on the way has too many bytes. -/
  | nameTooLong
  /-- The path holds a character that no name holds. -/
  | nulInPath
  | notText (fault : Text.Utf8Fault)
deriving DecidableEq, Repr

/-- What a fault at a path says. -/
def FileFault.message (path : String) : FileFault → String
  | missing => "[Errno 2] No such file or directory: " ++ Text.quote path
  | folder => "[Errno 21] Is a directory: " ++ Text.quote path
  | notFolder => "[Errno 20] Not a directory: " ++ Text.quote path
  | nameTooLong => "[Errno 36] File name too long: " ++ Text.quote path
  | nulInPath => "embedded null byte"
  | notText fault => fault.message

/-- The stored files and folders, by the names on the way to them. -/
structure Files where
  stored : List (List String × Stored)
deriving DecidableEq, Repr

namespace Files

/-- The parts of a text between slashes. -/
def splitSlash : List Char → List (List Char)
  | [] => [[]]
  | c :: rest =>
    if c = '/' then [] :: splitSlash rest
    else match splitSlash rest with
      | [] => [[c]]
      | first :: others => (c :: first) :: others

/-- Names with the current folder left out and each step up taken. -/
def walk (taken : List String) : List String → List String
  | [] => taken.reverse
  | name :: rest =>
    if name = "" ∨ name = "." then walk taken rest
    else if name = ".." then walk (taken.drop 1) rest
    else walk (name :: taken) rest

/-- The names on the way to a path. A path from the root starts with a slash of its own. -/
def names (path : String) : List String :=
  let parts := walk [] ((splitSlash path.toList).map String.ofList)
  if path.toList.head? == some '/' then "/" :: parts else parts

/-- What is stored by exactly these names. -/
def at? (files : Files) (names : List String) : Option Stored :=
  match files.stored.find? fun (way, _) ↦ way == names with
  | some (_, stored) => some stored
  | none =>
    if names.isEmpty || files.stored.any fun (way, _) ↦ names.isPrefixOf way then some .folder
    else none

/-- Some names that lead to the last are those of a file. -/
def blocked (files : Files) (names : List String) : Bool :=
  (List.range names.length).any fun n ↦
    match files.at? (names.take n) with
    | some (.file _) => true
    | _ => false

/-- Look a path up. -/
def look (files : Files) (path : String) : Except FileFault Stored :=
  let way := names path
  if path.toList.contains '\x00' then .error .nulInPath
  else if path = "" then .error .missing
  else if way.any fun name ↦ 255 < Text.byteLength name.toList then .error .nameTooLong
  else if files.blocked way then .error .notFolder
  else match files.at? way with
    | none => .error .missing
    | some (.file bytes) =>
      if path.toList.getLast? == some '/' then .error .notFolder else .ok (.file bytes)
    | some .folder => .ok .folder

/-- Something is stored at a path. -/
def exists? (files : Files) (path : String) : Bool := (files.look path).isOk

/-- Read a text file. -/
def readText (files : Files) (path : String) : Except FileFault String :=
  match files.look path with
  | .error fault => .error fault
  | .ok .folder => .error .folder
  | .ok (.file bytes) =>
    match Text.decodeUtf8 bytes with
    | .error fault => .error (.notText fault)
    | .ok text => .ok (String.ofList (Text.unifyLineEnds text.toList))

/-- Store bytes at a path whose folder is there. -/
def write (files : Files) (path : String) (bytes : List UInt8) : Except FileFault Files :=
  let way := names path
  let kept := files.stored.filter fun (other, _) ↦ other != way
  match files.look path with
  | .ok .folder => .error .folder
  | .ok (.file _) => .ok ⟨kept ++ [(way, .file bytes)]⟩
  | .error .missing =>
    if path = "" then .error .missing
    else if path.toList.getLast? == some '/' then .error .folder
    else match files.at? way.dropLast with
      | some .folder => .ok ⟨kept ++ [(way, .file bytes)]⟩
      | _ => .error .missing
  | .error fault => .error fault

end Files

/-- The surroundings of a run: the files and the folder of the user. -/
structure Workspace where
  files : Files
  home : String
deriving DecidableEq, Repr

end Manifest
