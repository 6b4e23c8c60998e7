import Manifest.Text.Quoted

/-!
# Strict UTF-8

`decodeUtf8` turns bytes into text or says where and why they are no UTF-8. Each lead byte admits
a range of second bytes, which keeps out overlong forms, surrogates and code points past U+10FFFF;
every later byte is a continuation byte. A fault names the bytes of the sequence that were still
acceptable: a lone bad byte, a sequence up to the byte that does not continue it, or all that is
left of the text when the sequence is cut off by its end.
-/

namespace Manifest.Text

/-- What is wrong with a sequence of bytes. -/
inductive Utf8Cause
  /-- No character starts with the byte. -/
  | start
  /-- The byte after the faulty ones does not continue their character. -/
  | continuation
  /-- The text ends inside a character. -/
  | cutOff
deriving DecidableEq, Repr

/-- Bytes that are not UTF-8: the offset of the first, their number, and the first byte. -/
structure Utf8Fault where
  offset : Nat
  count : Nat
  byte : UInt8
  cause : Utf8Cause
deriving DecidableEq, Repr

/-- The number of bytes after a lead byte, and the range of the second byte. -/
def leadByte? (b : Nat) : Option (Nat × Nat × Nat) :=
  if b < 0xc2 then none
  else if b < 0xe0 then some (1, 0x80, 0xbf)
  else if b = 0xe0 then some (2, 0xa0, 0xbf)
  else if b = 0xed then some (2, 0x80, 0x9f)
  else if b < 0xf0 then some (2, 0x80, 0xbf)
  else if b = 0xf0 then some (3, 0x90, 0xbf)
  else if b < 0xf4 then some (3, 0x80, 0xbf)
  else if b = 0xf4 then some (3, 0x80, 0x8f)
  else none

/-- The leading bytes that continue a character, at most `owed` of them, the first in a range of
its own. -/
def continuation : (owed low high : Nat) → List UInt8 → List UInt8
  | 0, _, _, _ => []
  | _, _, _, [] => []
  | owed + 1, low, high, b :: rest =>
    if low ≤ b.toNat ∧ b.toNat ≤ high then b :: continuation owed 0x80 0xbf rest else []

/-- The code point of a lead byte with its continuation bytes. -/
def codePoint (lead : Nat) (tail : List UInt8) : Nat :=
  tail.foldl (fun n b ↦ n * 64 + b.toNat % 64) (lead % Nat.pow 2 (6 - tail.length))

/-- Decode bytes that start at an offset of the whole. -/
def decodeUtf8From (offset : Nat) : List UInt8 → Except Utf8Fault (List Char)
  | [] => .ok []
  | b :: rest =>
    if b.toNat < 0x80 then (decodeUtf8From (offset + 1) rest).map (Char.ofNat b.toNat :: ·)
    else match leadByte? b.toNat with
      | none => .error ⟨offset, 1, b, .start⟩
      | some (owed, low, high) =>
        let tail := continuation owed low high rest
        if tail.length = owed then
          (decodeUtf8From (offset + 1 + owed) (rest.drop owed)).map
            (Char.ofNat (codePoint b.toNat tail) :: ·)
        else if tail.length = rest.length then
          .error ⟨offset, 1 + tail.length, b, .cutOff⟩
        else .error ⟨offset, 1 + tail.length, b, .continuation⟩
termination_by bytes => bytes.length
decreasing_by
  · simp
  · simp only [List.length_drop, List.length_cons]
    omega

/-- The text that bytes encode. -/
def decodeUtf8 (bytes : List UInt8) : Except Utf8Fault String :=
  (decodeUtf8From 0 bytes).map String.ofList

/-- What a fault says. -/
def Utf8Cause.message : Utf8Cause → String
  | .start => "invalid start byte"
  | .continuation => "invalid continuation byte"
  | .cutOff => "unexpected end of data"

/-- A fault with its place: one byte is shown, several are given by their offsets. -/
def Utf8Fault.message (fault : Utf8Fault) : String :=
  if fault.count = 1 then
    s!"'utf-8' codec can't decode byte 0x{String.ofList (hexDigits 2 fault.byte.toNat)} " ++
      s!"in position {fault.offset}: {fault.cause.message}"
  else
    s!"'utf-8' codec can't decode bytes in position {fault.offset}-" ++
      s!"{fault.offset + fault.count - 1}: {fault.cause.message}"

end Manifest.Text
