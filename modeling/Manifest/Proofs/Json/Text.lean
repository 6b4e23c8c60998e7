import Manifest.Json.Reader
import Manifest.Json.Writer

/-!
# Texts between quotes

A text that is written between quotes is read back character for character
(`readString_writeString`). Each character is written as itself or as an escape of its own, which
ends where the next one starts (`readUnits_escape`), and no character is a surrogate, so that none
are joined (`joinSurrogates_map_toNat`).
-/

namespace Manifest.Json

private theorem not_surrogate (c : Char) : ¬ (0xd800 ≤ c.toNat ∧ c.toNat < 0xe000) := by
  have valid : c.toNat < 0xd800 ∨ 0xdfff < c.toNat ∧ c.toNat < 0x110000 := c.valid
  omega

/-- The code points of characters are joined to these characters. -/
theorem joinSurrogates_map_toNat (chars : List Char) :
    joinSurrogates (chars.map Char.toNat) = chars := by
  induction chars with
  | nil => rfl
  | cons c rest ih =>
    have alone := not_surrogate c
    cases rest with
    | nil => rw [List.map_singleton, joinSurrogates, if_neg alone, Char.ofNat_toNat]
    | cons d rest =>
      have apart :
          ¬ (0xd800 ≤ c.toNat ∧ c.toNat < 0xdc00 ∧ 0xdc00 ≤ d.toNat ∧ d.toNat < 0xe000) := by
        omega
      rw [List.map_cons, List.map_cons, joinSurrogates, if_neg apart, if_neg alone,
        Char.ofNat_toNat, ← List.map_cons, ih]

private theorem hexValue?_hexDigit {n : Nat} (h : n < 16) :
    hexValue? (Text.hexDigit n) = some n := by
  have : ∀ k : Fin 16, hexValue? (Text.hexDigit k) = some k.val := by decide
  exact this ⟨n, h⟩

private theorem exists_hexDigits {n : Nat} (h : n < 0x10000) :
    ∃ a b c d, Text.hexDigits 4 n = [a, b, c, d] ∧ hexUnit? a b c d = some n := by
  refine ⟨_, _, _, _, rfl, ?_⟩
  rw [hexUnit?, hexValue?_hexDigit (Nat.mod_lt _ (by decide)),
    hexValue?_hexDigit (Nat.mod_lt _ (by decide)), hexValue?_hexDigit (Nat.mod_lt _ (by decide)),
    hexValue?_hexDigit (Nat.mod_lt _ (by decide))]
  simp only [Option.some.injEq]
  omega

/-- A character is written as a backslash with a letter that is read as the character, as its code
point if it is a control character, or as itself. -/
theorem escape_cases (c : Char) :
    (∃ letter, escape c = ['\\', letter] ∧ letter ≠ 'u' ∧ shortEscape? letter = some c) ∨
      (escape c = '\\' :: 'u' :: Text.hexDigits 4 c.toNat ∧ c.toNat < 0x20) ∨
      (escape c = [c] ∧ c ≠ '"' ∧ c ≠ '\\' ∧ ¬ c.toNat < 0x20) := by
  unfold escape
  split
  · next marked => obtain rfl | rfl := marked <;> exact .inl ⟨_, rfl, by decide, rfl⟩
  · next unmarked =>
    obtain ⟨quote, backslash⟩ := not_or.mp unmarked
    split
    · next newline => exact .inl ⟨'n', rfl, by decide, newline ▸ rfl⟩
    split
    · next return_ => exact .inl ⟨'r', rfl, by decide, return_ ▸ rfl⟩
    split
    · next tab => exact .inl ⟨'t', rfl, by decide, tab ▸ rfl⟩
    split
    · next backspace => exact .inl ⟨'b', rfl, by decide, backspace ▸ rfl⟩
    split
    · next feed => exact .inl ⟨'f', rfl, by decide, feed ▸ rfl⟩
    split
    · next control => exact .inr (.inl ⟨rfl, control⟩)
    · next printed => exact .inr (.inr ⟨rfl, quote, backslash, printed⟩)

/-- A character is read back from what stands for it, when something follows. -/
theorem readUnits_escape (start offset : Nat) (c : Char) {rest : List Char}
    (nonempty : rest ≠ []) :
    ∃ after, readUnits start offset (escape c ++ rest) =
      consUnit c.toNat (readUnits start after rest) := by
  obtain ⟨letter, written, noUnit, read⟩ | ⟨written, control⟩ |
    ⟨written, quote, backslash, printed⟩ := escape_cases c
  · exact ⟨offset + 2, by simp [written, readUnits, noUnit, read]⟩
  · obtain ⟨x, y, z, w, digits, unit⟩ := exists_hexDigits (show c.toNat < 0x10000 by omega)
    obtain ⟨next, others, rfl⟩ := List.exists_cons_of_ne_nil nonempty
    exact ⟨offset + 6, by simp [written, readUnits, digits, unit]⟩
  · exact ⟨offset + 1, by simp [written, readUnits, backslash, printed]⟩

/-- The characters of a text are read back up to the closing quote. -/
theorem readUnits_flatMap_escape (start offset : Nat) (chars rest : List Char) :
    ∃ after, readUnits start offset (chars.flatMap escape ++ '"' :: rest) =
      .ok (chars.map Char.toNat, ⟨after, rest⟩) := by
  induction chars generalizing offset with
  | nil => exact ⟨offset + 1, by simp [readUnits]⟩
  | cons c chars ih =>
    have more : chars.flatMap escape ++ '"' :: rest ≠ [] := by simp
    obtain ⟨between, first⟩ := readUnits_escape start offset c more
    obtain ⟨after, others⟩ := ih between
    refine ⟨after, ?_⟩
    rw [List.flatMap_cons, List.append_assoc, first, others]
    rfl

/-- A text is read back from between its quotes. -/
theorem readString_writeString (offset : Nat) (s : String) (rest : List Char) :
    ∃ after, readString ((⟨offset, writeString s ++ rest⟩ : Rest).skip 1) =
      .ok (s, ⟨after, rest⟩) := by
  obtain ⟨after, units⟩ :=
    readUnits_flatMap_escape (offset + 1 - 1) (offset + 1) s.toList rest
  refine ⟨after, ?_⟩
  have inside : (writeString s ++ rest).drop 1 = s.toList.flatMap escape ++ '"' :: rest := by
    simp [writeString]
  rw [readString, Rest.skip, inside, units]
  simp only [Except.map, joinSurrogates_map_toNat, String.ofList_toList]

end Manifest.Json
