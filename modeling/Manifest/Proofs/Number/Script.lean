import Mathlib.Data.List.Induction
import Mathlib.Data.Nat.Digits.Defs
import Manifest.Proofs.Number.Digits

/-!
# Digits of any script

The decimal digits of every script are read as places of a number
(`Numeral.readInteger_isDecimal`). A character that has the digit property without being a decimal
digit is none, and a text that has one among its digits is refused as no number
(`Numeral.readInteger_of_isDigit`).
-/

namespace Manifest

open Text (decimalValue? isDigit isBlank decimalZeros otherDigitRanges)

namespace Text

/-- A run of decimal digits of any script. -/
structure IsDecimal (text : List Char) : Prop where
  nonempty : text ≠ []
  digits : ∀ c ∈ text, (decimalValue? c).isSome = true

/-- The number that decimal digits of any script denote. -/
def denoted (text : List Char) : Nat := Nat.ofDigits 10 (text.filterMap decimalValue?).reverse

end Text

namespace Numeral

variable {text : List Char} {c : Char}

private theorem isBlank_eq (c : Char) :
    isBlank c = Text.inRanges ((0x1c, 0x1f) :: Text.whiteSpaceRanges) c := by
  simp [isBlank, Text.isWhiteSpace, Text.inRanges]

private theorem isBlank_eq_false {low high : Nat}
    (apart : ((0x1c, 0x1f) :: Text.whiteSpaceRanges).all
      (fun range ↦ range.2 < low || high < range.1) = true)
    (least : low ≤ c.toNat) (most : c.toNat ≤ high) : isBlank c = false := by
  rw [isBlank_eq, Text.inRanges, List.any_eq_false]
  intro range inside blank
  have outside := List.all_eq_true.mp apart range inside
  simp only [Bool.or_eq_true, Bool.and_eq_true, decide_eq_true_eq] at outside blank
  omega

private theorem toAscii_of_decimalValue? {n : Nat} (digit : decimalValue? c = some n) :
    toAscii c = digitChar n := by
  have place := digit
  simp only [decimalValue?, Option.map_eq_some_iff] at place
  obtain ⟨start, found, rfl⟩ := place
  have inside := List.mem_of_find?_eq_some found
  have range := List.find?_some found
  simp only [Bool.and_eq_true, decide_eq_true_eq] at range
  by_cases plain : c.toNat < 127
  · have ascii : ∀ start ∈ decimalZeros, start < 127 → start = 48 := by decide
    rw [ascii start inside (by omega), toAscii, if_pos plain, digitChar]
    have same : 48 + (c.toNat - 48) = c.toNat := by
      have := ascii start inside (by omega)
      omega
    rw [same, Char.ofNat_toNat]
  · have apart : ∀ start ∈ decimalZeros, ((0x1c, 0x1f) :: Text.whiteSpaceRanges).all
        (fun range ↦ range.2 < start || start + 9 < range.1) = true := by decide
    have dark := isBlank_eq_false (apart start inside) range.1 (by omega)
    rw [toAscii, if_neg plain, if_neg (by rw [dark]; exact Bool.false_ne_true), digit]

private theorem toAscii_of_isDigit (digit : isDigit c = true) (other : decimalValue? c = none) :
    toAscii c = '?' := by
  have listed : Text.inRanges otherDigitRanges c = true := by
    rwa [isDigit, other, Option.isSome_none, Bool.false_or] at digit
  obtain ⟨range, inside, within⟩ := List.any_eq_true.mp listed
  simp only [Bool.and_eq_true, decide_eq_true_eq] at within
  have apart : ∀ range ∈ otherDigitRanges, 127 ≤ range.1 ∧
      ((0x1c, 0x1f) :: Text.whiteSpaceRanges).all
      (fun blank ↦ blank.2 < range.1 || range.2 < blank.1) = true := by decide
  obtain ⟨beyond, apart⟩ := apart range inside
  have dark := isBlank_eq_false apart within.1 within.2
  rw [toAscii, if_neg (by omega), if_neg (by rw [dark]; exact Bool.false_ne_true), other]

private theorem isAsciiDigit_toAscii (digits : ∀ c ∈ text, (decimalValue? c).isSome = true) :
    ∀ c ∈ text.map toAscii, isAsciiDigit c = true := by
  intro c inside
  obtain ⟨original, member, rfl⟩ := List.mem_map.mp inside
  obtain ⟨n, digit⟩ := Option.isSome_iff_exists.mp (digits original member)
  rw [toAscii_of_decimalValue? digit]
  exact isAsciiDigit_digitChar (Text.decimalValue?_lt digit)

private theorem valueOf_map_toAscii (digits : ∀ c ∈ text, (decimalValue? c).isSome = true) :
    valueOf (text.map toAscii) = Text.denoted text := by
  induction text using List.reverseRecOn with
  | nil => rfl
  | append_singleton text last ih =>
    obtain ⟨before, final⟩ := List.forall_mem_append.mp digits
    obtain ⟨n, digit⟩ := Option.isSome_iff_exists.mp (final last (List.mem_singleton_self last))
    have value : digitValue (digitChar n) = n := digitValue_digitChar (Text.decimalValue?_lt digit)
    have places :
        (text ++ [last]).filterMap decimalValue? = text.filterMap decimalValue? ++ [n] := by
      simp [digit]
    rw [Text.denoted, places, List.reverse_append, List.reverse_singleton, List.singleton_append,
      Nat.ofDigits_cons, ← Text.denoted, ← ih before, List.map_append, List.map_singleton,
      toAscii_of_decimalValue? digit, valueOf, valueFrom_append, valueFrom, List.foldl_cons,
      List.foldl_nil, value, ← valueOf]
    exact Nat.add_comm _ _

/-- A run of decimal digits of any script is read as the number that it denotes, and refused when
it is too long. -/
theorem readInteger_isDecimal (run : Text.IsDecimal text) :
    readInteger (String.ofList text) =
      if maxDigits < text.length then .error (.tooLong text.length)
      else .ok (Text.denoted text) := by
  have ascii : (String.ofList text).toList.map toAscii = text.map toAscii ++ [] := by
    rw [String.toList_ofList, List.append_nil]
  rw [readInteger_of_map ascii (isAsciiDigit_toAscii run.digits) (.inl rfl)]
  simp [run.nonempty, valueOf_map_toAscii run.digits]

/-- A text of characters with the digit property is refused if one of them is no decimal digit, for
its length if more decimal digits than are read come first. -/
theorem readInteger_of_isDigit (digits : ∀ c ∈ text, isDigit c = true)
    (other : ∃ c ∈ text, decimalValue? c = none) :
    let leading := text.takeWhile fun c ↦ (decimalValue? c).isSome
    readInteger (String.ofList text) =
      .error (if maxDigits < leading.length then .tooLong leading.length
        else .malformed (String.ofList text)) := by
  intro leading
  have nonempty : text.dropWhile (fun c ↦ (decimalValue? c).isSome) ≠ [] := by
    intro empty
    obtain ⟨c, inside, noValue⟩ := other
    have value := List.dropWhile_eq_nil_iff.mp empty c inside
    rw [noValue] at value
    cases value
  obtain ⟨c, more, rest⟩ := List.exists_cons_of_ne_nil nonempty
  have stops : decimalValue? c = none := by
    have first := List.head?_dropWhile_not (fun c ↦ (decimalValue? c).isSome) text
    rw [rest] at first
    simpa using first
  have whole : text = leading ++ c :: more := by rw [← rest, List.takeWhile_append_dropWhile]
  have mark : toAscii c = '?' := by
    apply toAscii_of_isDigit (digits c _) stops
    rw [whole]
    exact List.mem_append_right _ List.mem_cons_self
  have ascii : (String.ofList text).toList.map toAscii =
      leading.map toAscii ++ '?' :: more.map toAscii := by
    rw [String.toList_ofList, ← mark, ← List.map_cons, ← List.map_append, ← whole]
  have decimal : ∀ c ∈ leading, (decimalValue? c).isSome = true := fun c inside ↦
    List.mem_takeWhile_imp (p := fun c ↦ (decimalValue? c).isSome) inside
  have refused : leading.map toAscii = [] ∨ '?' :: more.map toAscii ≠ [] :=
    .inr (List.cons_ne_nil _ _)
  rw [readInteger_of_map ascii (isAsciiDigit_toAscii decimal) (.inr rfl), List.length_map,
    if_pos refused]
  split_ifs <;> rfl

end Numeral
end Manifest
