import Manifest.Text.Digit
import Manifest.Text.Quoted

/-!
# Numerals

A numeral is the text of a whole number in base ten. Writing is `ofNat`; `valueOf` is the number
that a run of decimal digits denotes. `readInteger` reads the generous notation accepted where a
whole number is given as text: blanks around it, a sign, digits of any script, and single
underscores between digits. `readLooseInteger` reads the notation of settings, where a number may
have zeros in front and a fraction of zeros. Numerals of more than `maxDigits` digits are refused,
whatever they denote.
-/

namespace Manifest.Numeral

open Manifest.Text

/-- The longest numeral that is read, in digits. -/
def maxDigits : Nat := 4300

/-- The character of a place value below ten. -/
def digitChar (n : Nat) : Char := Char.ofNat (48 + n)

/-- The decimal digits of a number, the most significant first. -/
def ofNat (n : Nat) : List Char :=
  if n < 10 then [digitChar n] else ofNat (n / 10) ++ [digitChar (n % 10)]

/-- The numeral of an integer, with a minus sign when it is negative. -/
def ofInt (n : Int) : List Char :=
  if n < 0 then '-' :: ofNat n.natAbs else ofNat n.natAbs

/-- The number of decimal digits of a number; zero has one. -/
def width (n : Nat) : Nat := if n < 10 then 1 else width (n / 10) + 1

/-- The digits `0` to `9`. -/
def isAsciiDigit (c : Char) : Bool := '0' ≤ c && c ≤ '9'

/-- The place value of an ASCII digit. -/
def digitValue (c : Char) : Nat := c.toNat - 48

/-- The number denoted by a run of digits, continuing from the digits before it. -/
def valueFrom (start : Nat) (digits : List Char) : Nat :=
  digits.foldl (fun n c ↦ 10 * n + digitValue c) start

/-- The number denoted by a run of ASCII digits. -/
def valueOf (digits : List Char) : Nat := valueFrom 0 digits

/-- Why a text is not read as a number. -/
inductive Fault
  /-- The text is not a numeral. -/
  | malformed (text : String)
  /-- The numeral has more digits than are read. -/
  | tooLong (digits : Nat)
  /-- The text is not a number with a fraction. -/
  | notReal (text : String)
deriving DecidableEq, Repr

/-- What a fault says. A malformed text is shown quoted, up to 200 characters. -/
def Fault.message : Fault → String
  | malformed text =>
    "invalid literal for int() with base 10: " ++
      String.ofList ((Text.quote text).toList.take 200)
  | tooLong digits =>
    s!"Exceeds the limit ({maxDigits} digits) for integer string conversion: " ++
      s!"value has {digits} digits; use sys.set_int_max_str_digits() to increase the limit"
  | notReal text => "could not convert string to float: " ++ Text.quote text

/-- ASCII text as it is; of the other characters a blank becomes a space, a decimal digit the
ASCII digit of its value, and any other a question mark. -/
def toAscii (c : Char) : Char :=
  if c.toNat < 127 then c
  else if isBlank c then ' '
  else match decimalValue? c with
    | some n => digitChar n
    | none => '?'

/-- A sign at the front, `true` for minus, and the text after it. -/
def takeSign : List Char → Bool × List Char
  | '-' :: rest => (true, rest)
  | '+' :: rest => (false, rest)
  | rest => (false, rest)

/-- An underscore stands between two digits: neither first, nor last, nor beside another. -/
def underscoresBetween : List Char → Bool
  | [] => true
  | ['_'] => false
  | '_' :: '_' :: _ => false
  | _ :: rest => underscoresBetween rest

/-- Read a whole number: blanks, a sign, digits with single underscores between them, blanks.
Too long a run of digits is refused before the text after it is looked at. -/
def readInteger (text : String) : Except Fault Int :=
  let (negative, body) := takeSign ((text.toList.map toAscii).dropWhile isAsciiBlank)
  let run := body.takeWhile fun c ↦ isAsciiDigit c || c == '_'
  let digits := run.filter isAsciiDigit
  if run.head? == some '_' || !underscoresBetween run then .error (.malformed text)
  else if maxDigits < digits.length then .error (.tooLong digits.length)
  else if digits.isEmpty || !(body.drop run.length).all isAsciiBlank then .error (.malformed text)
  else if negative then .ok (-(valueOf digits : Int)) else .ok (valueOf digits)

/-- Read a whole number in its one plain notation: at most a minus sign, then a zero alone, or
digits of which the first is no zero. The sign counts against the limit, and too long a run is
refused before what follows it is looked at. -/
def readPlainInteger (text : List Char) : Except Fault Int :=
  let body := if text.head? == some '-' then text.drop 1 else text
  let digits := body.takeWhile isAsciiDigit
  let rest := body.dropWhile isAsciiDigit
  let length := text.length - rest.length
  if digits.isEmpty || (digits.head? == some '0' && 1 < digits.length) then
    .error (.malformed (String.ofList text))
  else if maxDigits < length then .error (.tooLong length)
  else if !rest.isEmpty then .error (.malformed (String.ofList text))
  else if text.head? == some '-' then .ok (-(valueOf digits : Int))
  else .ok (valueOf digits)

/-- What is left of a number once its zeros are read, of which `last` is the last: underscores
count as zeros among them, and a zero stays in front of a point or when nothing follows. -/
def afterZeros (last : Char) : List Char → Option (List Char)
  | [] => some [last]
  | c :: rest =>
    if c = '0' || c = '_' then afterZeros c rest
    else if c = '.' then some (last :: c :: rest)
    else if c = '-' || isAsciiDigit c then some (c :: rest)
    else none

/-- Remove the zeros in front of a number. -/
def dropZeros : List Char → Option (List Char)
  | '0' :: rest => afterZeros '0' rest
  | c :: rest => if c = '-' || isAsciiDigit c then some (c :: rest) else none
  | [] => none

/-- Remove a plus sign, which no minus sign follows. -/
def dropPlus : List Char → Option (List Char)
  | '+' :: '-' :: _ => none
  | '+' :: rest => some rest
  | text => some text

/-- Remove a fraction of zeros, of which there is at least one, and its point. -/
def dropZeroFraction (text : List Char) : List Char :=
  let fraction := (text.dropWhile (· != '.')).drop 1
  if !fraction.isEmpty && fraction.all (· == '0') then text.takeWhile (· != '.') else text

/-- Underscores neither first nor last, and no two side by side. -/
def underscoresInside (text : List Char) : Bool :=
  text.head? != some '_' && underscoresBetween text

/-- Remove the underscores of a text, unless one of them is out of place. -/
def dropUnderscores (text : List Char) : List Char :=
  if underscoresInside text then text.filter (· != '_') else text

/-- A whole number brought nearer to the plain notation: without the white space around it, a plus
sign, zeros in front, a fraction of zeros and underscores, removed in this order. -/
def plainNotation? (text : List Char) : Option (List Char) := do
  let unsigned ← dropPlus (stripBy isWhiteSpace text)
  let digits ← dropZeros unsigned
  pure (dropUnderscores (dropZeroFraction digits))

/-- Read a whole number in the looser notation of settings: plain, or plain once tidied. -/
def readLooseInteger (text : String) : Except Fault Int :=
  match readPlainInteger text.toList with
  | .error (.malformed _) =>
    match plainNotation? text.toList with
    | some plain => readPlainInteger plain
    | none => .error (.malformed text)
  | answer => answer

/-- A number has at least one digit. -/
theorem ofNat_ne_nil (n : Nat) : ofNat n ≠ [] := by
  unfold ofNat
  split <;> simp

/-- `width` counts the digits that `ofNat` writes. -/
theorem length_ofNat (n : Nat) : (ofNat n).length = width n := by
  induction n using Nat.strongRecOn with
  | ind n ih =>
    unfold ofNat width
    split
    · rfl
    · rw [List.length_append, ih (n / 10) (by omega)]
      rfl

/-- Reading a run and then another is reading the second from the value of the first. -/
theorem valueFrom_append (start : Nat) (a b : List Char) :
    valueFrom start (a ++ b) = valueFrom (valueFrom start a) b := by
  simp [valueFrom, List.foldl_append]

/-- A place value read back from its character. -/
theorem digitValue_digitChar {n : Nat} (h : n < 10) : digitValue (digitChar n) = n := by
  have : ∀ m : Fin 10, digitValue (digitChar m) = m := by decide
  exact this ⟨n, h⟩

/-- Reading the digits of a number gives the number back. -/
theorem valueOf_ofNat (n : Nat) : valueOf (ofNat n) = n := by
  induction n using Nat.strongRecOn with
  | ind n ih =>
    unfold ofNat
    split
    · next h => simp [valueOf, valueFrom, digitValue_digitChar h]
    · have := ih (n / 10) (by omega)
      rw [valueOf] at this
      rw [valueOf, valueFrom_append, this, valueFrom, List.foldl_cons, List.foldl_nil,
        digitValue_digitChar (by omega)]
      omega

end Manifest.Numeral
