import Manifest.Text.Digit

/-!
# Words of a command line

A word that starts with a dash is an option, if it is one of those known. The name of a long option
may be cut short as long as it fits only one, and an argument may be attached to a name by an
equals sign; letters may be attached to a short option, with an equals sign or without. Numbers
below zero, words with a space in them, the dash alone and the empty word are plain all the same.
The word of two dashes makes plain all words after it.
-/

namespace Manifest.CommandLine

/-- What an option asks for. -/
inductive Switch
  | help
  | verbose
  | config
deriving DecidableEq, Repr

/-- The names of an option in a message. -/
def Switch.label : Switch → String
  | help => "-h/--help"
  | verbose => "--verbose"
  | config => "--config"

/-- The options that are known at one place of a command line, by their spellings. -/
abbrev Spellings := List (String × Switch)

/-- What is attached to the name of an option. -/
inductive Attachment
  | nothing
  /-- The text after an equals sign. -/
  | argument (text : List Char)
  /-- The letters after a short option, of which there is at least one. -/
  | letters (text : List Char)
deriving DecidableEq, Repr

/-- What a word is. -/
inductive MarkedWord.Role
  | plain
  /-- The first word of two dashes. -/
  | divider
  | option (switch : Switch) (attached : Attachment)
  /-- An option that is not known. -/
  | stray
deriving DecidableEq, Repr

/-- A word of a command line, marked with its role. -/
structure MarkedWord where
  text : String
  role : MarkedWord.Role
deriving DecidableEq, Repr

/-- A name that several options fit. -/
structure Ambiguity where
  text : String
  spellings : List String
deriving DecidableEq, Repr

/-- A text up to its first equals sign, and the text after that. -/
def splitArgument (text : List Char) : List Char × Option (List Char) :=
  match text.dropWhile (· != '=') with
  | [] => (text, none)
  | _ :: argument => (text.takeWhile (· != '='), some argument)

/-- What the text after an equals sign is to the name before it: the letters of a short option, if
there are any, or else an argument. -/
def attachment (name : List Char) : Option (List Char) → Attachment
  | none => .nothing
  | some text =>
    if name.length = 2 && !text.isEmpty then .letters text else .argument text

/-- The option of exactly this spelling. -/
def Spellings.switchOf? (known : Spellings) (name : List Char) : Option Switch :=
  (known.find? fun (spelling, _) ↦ spelling.toList == name).map Prod.snd

/-- The options whose spellings start with a text. -/
def Spellings.startingWith (known : Spellings) (start : List Char) : Spellings :=
  known.filter fun (spelling, _) ↦ start.isPrefixOf spelling.toList

/-- A number below zero: a dash and digits, with a point before the last of them or none; a line
feed may follow. -/
def isBelowZero (text : List Char) : Bool :=
  match text with
  | '-' :: number =>
    let number := if number.getLast? == some '\n' then number.dropLast else number
    let digits := number.takeWhile fun c ↦ (Text.decimalValue? c).isSome
    match number.dropWhile fun c ↦ (Text.decimalValue? c).isSome with
    | [] => !digits.isEmpty
    | '.' :: fraction =>
      !fraction.isEmpty && fraction.all fun c ↦ (Text.decimalValue? c).isSome
    | _ => false
  | _ => false

/-- The role of a word that is no known option. -/
def strayRole (text : List Char) : MarkedWord.Role :=
  if isBelowZero text || text.contains ' ' then .plain else .stray

/-- The role of a word before the divider. -/
def roleOf (known : Spellings) (word : String) : Except Ambiguity MarkedWord.Role :=
  match word.toList with
  | '-' :: second :: tail =>
    let text := '-' :: second :: tail
    let (name, argument) := splitArgument text
    match known.switchOf? text, known.switchOf? name with
    | some switch, _ => .ok (.option switch .nothing)
    | none, some switch => .ok (.option switch (attachment name argument))
    | none, none =>
      if second = '-' then
        match known.startingWith name with
        | [] => .ok (strayRole text)
        | [(spelling, switch)] => .ok (.option switch (attachment spelling.toList argument))
        | several => .error ⟨word, several.map Prod.fst⟩
      else
        match known.switchOf? ['-', second] with
        | some switch => .ok (.option switch (.letters tail))
        | none => .ok (strayRole text)
  | _ => .ok .plain

/-- The words of a command line where some options are known. -/
def wordsOf (known : Spellings) : List String → Except Ambiguity (List MarkedWord)
  | [] => .ok []
  | text :: rest =>
    if text = "--" then .ok (⟨text, .divider⟩ :: rest.map (⟨·, .plain⟩))
    else match roleOf known text, wordsOf known rest with
      | .ok role, .ok words => .ok (⟨text, role⟩ :: words)
      | .error ambiguity, _ => .error ambiguity
      | .ok _, .error ambiguity => .error ambiguity

end Manifest.CommandLine
