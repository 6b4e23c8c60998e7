import Mathlib.Data.List.TakeWhile
import Manifest.Number.Literal

/-!
# Runs of digits

A run of ASCII digits is read as the number that it denotes, by every reader of the library:
nothing is stripped from it, nothing in it is a sign, an underscore or a word. Of a number with a
point, the whole part and the fraction together are one run of digits, and the length of the
fraction is the exponent; zeros in front of the whole part do not count.
-/

namespace Manifest.Numeral

open Manifest.Text

/-- A run of ASCII digits. -/
structure IsRun (text : List Char) : Prop where
  nonempty : text ≠ []
  digits : ∀ c ∈ text, isAsciiDigit c = true

/-- The code points of the digits. -/
theorem isAsciiDigit_iff (c : Char) : isAsciiDigit c = true ↔ 48 ≤ c.toNat ∧ c.toNat ≤ 57 := by
  simp only [isAsciiDigit, Bool.and_eq_true, decide_eq_true_eq, Char.le_def,
    UInt32.le_iff_toNat_le]
  exact Iff.rfl

-- The characters that a reader of numbers may drop, join or take for something else.
private def isSpecial (c : Char) : Bool :=
  isAsciiBlank c || c == '_' || c == '-' || c == '+' || decide (127 ≤ c.toNat)

private theorem digit_not_special {c : Char} (h : isAsciiDigit c = true) :
    isSpecial c = false := by
  rw [isAsciiDigit_iff] at h
  have ne (d : Char) (hd : d.toNat < 48) : c ≠ d := by
    rintro rfl
    omega
  simp only [isSpecial, isAsciiBlank, inRanges, List.any_cons, List.any_nil, Bool.or_false,
    Bool.or_eq_false_iff, Bool.and_eq_false_iff, decide_eq_false_iff_not, beq_eq_false_iff_ne]
  refine ⟨⟨⟨⟨⟨?_, ?_⟩, ?_⟩, ne '-' (by decide)⟩, ne '+' (by decide)⟩, ?_⟩
  · omega
  · omega
  · rintro rfl
    exact absurd h.2 (by decide)
  · omega

private theorem toAscii_of_not_special {c : Char} (h : isSpecial c = false) : toAscii c = c := by
  simp only [isSpecial, Bool.or_eq_false_iff, decide_eq_false_iff_not] at h
  rw [toAscii, if_pos (by omega)]

private theorem map_toAscii {text : List Char} (h : ∀ c ∈ text, isSpecial c = false) :
    text.map toAscii = text := by
  rw [List.map_congr_left fun c hc ↦ toAscii_of_not_special (h c hc), List.map_id']

private theorem dropWhile_blank {text : List Char} (h : ∀ c ∈ text.head?, isSpecial c = false) :
    text.dropWhile isAsciiBlank = text := by
  cases text with
  | nil => rfl
  | cons c rest =>
    have hc := h c rfl
    simp only [isSpecial, Bool.or_eq_false_iff] at hc
    rw [List.dropWhile_cons_of_neg (by simp [hc])]

private theorem stripBy_blank {text : List Char} (h : ∀ c ∈ text, isSpecial c = false) :
    stripBy isAsciiBlank text = text := by
  apply stripBy_eq_self
  intro c hc
  have plain := h c hc
  simp only [isSpecial, Bool.or_eq_false_iff] at plain
  exact plain.1.1.1.1

private theorem takeSign_unsigned {text : List Char} (h : ∀ c ∈ text.head?, isSpecial c = false) :
    takeSign text = (false, text) := by
  unfold takeSign
  split
  · exact absurd (h _ rfl) (by decide)
  · exact absurd (h _ rfl) (by decide)
  · rfl

private theorem underscoresBetween_digits {text : List Char}
    (h : ∀ c ∈ text, isAsciiDigit c = true) : underscoresBetween text = true := by
  fun_induction underscoresBetween text with
  | case1 => rfl
  | case2 => exact absurd (h _ List.mem_cons_self) (by decide)
  | case3 rest => exact absurd (h _ List.mem_cons_self) (by decide)
  | case4 c rest _ _ ih => exact ih fun d hd ↦ h d (List.mem_cons_of_mem c hd)

/-- What follows a text and starts with no character of a class changes nothing in the run of that
class with which the text starts. -/
theorem takeWhile_append_stop {p : Char → Bool} {rest : List Char}
    (stop : ∀ c ∈ rest.head?, p c = false) (text : List Char) :
    (text ++ rest).takeWhile p = text.takeWhile p ∧
      (text ++ rest).dropWhile p = text.dropWhile p ++ rest := by
  have stays : rest.takeWhile p = [] ∧ rest.dropWhile p = rest := by
    cases rest with
    | nil => exact ⟨rfl, rfl⟩
    | cons c rest => simp [stop c rfl]
  constructor
  · rw [List.takeWhile_append, stays.1, List.append_nil]
    split
    · next whole => exact ((List.takeWhile_prefix p).eq_of_length whole).symm
    · rfl
  · rw [List.dropWhile_append, stays.2]
    split
    · next empty =>
      rw [List.isEmpty_iff.mp empty]
      rfl
    · rfl

/-- A run of characters of a class, up to one that is not of the class, is taken and dropped
whole. -/
theorem takeWhile_all {p : Char → Bool} {text : List Char} (run : ∀ c ∈ text, p c = true)
    (rest : List Char) (stop : ∀ c ∈ rest.head?, p c = false) :
    (text ++ rest).takeWhile p = text ∧ (text ++ rest).dropWhile p = rest := by
  obtain ⟨taken, dropped⟩ := takeWhile_append_stop stop text
  rw [taken, dropped, List.takeWhile_eq_self_iff.mpr run, List.dropWhile_eq_nil_iff.mpr run]
  exact ⟨rfl, rfl⟩

/-- A text that is digits in plain notation, or digits and then something else, is read as the
number that the digits denote, if there are some and nothing is after them. Too many digits are
refused whatever is after them. -/
theorem readInteger_of_map {text : String} {run rest : List Char}
    (ascii : text.toList.map toAscii = run ++ rest) (digits : ∀ c ∈ run, isAsciiDigit c = true)
    (stop : rest = [] ∨ rest.head? = some '?') :
    readInteger text =
      if maxDigits < run.length then .error (.tooLong run.length)
      else if run = [] ∨ rest ≠ [] then .error (.malformed text)
      else .ok (valueOf run) := by
  have plain : ∀ c ∈ (run ++ rest).head?, isSpecial c = false := by
    intro c front
    cases run with
    | nil =>
      obtain rfl | other := stop
      · cases front
      · rw [← Option.some.inj (other.symm.trans front)]
        decide
    | cons d more =>
      rw [← Option.some.inj front]
      exact digit_not_special (digits d List.mem_cons_self)
  have taken : (run ++ rest).takeWhile (fun c ↦ isAsciiDigit c || c == '_') = run := by
    apply (takeWhile_all (fun c hc ↦ by rw [digits c hc, Bool.true_or]) rest _).1
    intro c front
    obtain rfl | other := stop
    · cases front
    · rw [← Option.some.inj (other.symm.trans front)]
      decide
  have first : (run.head? == some '_') = false := by
    cases run with
    | nil => rfl
    | cons d more =>
      have plain := digit_not_special (digits d List.mem_cons_self)
      simp only [isSpecial, Bool.or_eq_false_iff, beq_eq_false_iff_ne] at plain
      simpa using plain.1.1.1.2
  have blank : rest.all isAsciiBlank = rest.isEmpty := by
    cases rest with
    | nil => rfl
    | cons c more =>
      obtain none | other := stop
      · cases none
      · obtain rfl : c = '?' := Option.some.inj other
        rfl
  rw [readInteger, ascii, dropWhile_blank plain, takeSign_unsigned plain]
  simp only [taken, first, underscoresBetween_digits digits, List.filter_eq_self.mpr digits,
    List.drop_left, blank, Bool.not_true, Bool.or_self, Bool.false_eq_true, if_false,
    Bool.or_eq_true, Bool.not_eq_true', List.isEmpty_iff, List.isEmpty_eq_false_iff, ne_eq]

/-- A run of digits is read as the number that it denotes, and refused when it is too long. -/
theorem readInteger_isRun {text : String} (run : IsRun text.toList) :
    readInteger text =
      if maxDigits < text.toList.length then .error (.tooLong text.toList.length)
      else .ok (valueOf text.toList) := by
  have ascii : text.toList.map toAscii = text.toList ++ [] := by
    rw [map_toAscii fun c hc ↦ digit_not_special (run.digits c hc), List.append_nil]
  rw [readInteger_of_map ascii run.digits (.inl rfl)]
  simp [run.nonempty]

/-- A run of digits that is not too long is read as the number that it denotes. -/
theorem readInteger_of_isRun {text : String} (run : IsRun text.toList)
    (short : text.toList.length ≤ maxDigits) :
    readInteger text = .ok (valueOf text.toList) := by
  rw [readInteger_isRun run, if_neg (Nat.not_lt.mpr short)]

/-- The character of a place value is a digit. -/
theorem isAsciiDigit_digitChar {n : Nat} (h : n < 10) : isAsciiDigit (digitChar n) = true := by
  have : ∀ k : Fin 10, isAsciiDigit (digitChar k) = true := by decide
  exact this ⟨n, h⟩

/-- The digits of a number are a run. -/
theorem isRun_ofNat (n : Nat) : IsRun (ofNat n) := by
  refine ⟨ofNat_ne_nil n, ?_⟩
  induction n using Nat.strongRecOn with
  | ind n ih =>
    intro c hc
    unfold ofNat at hc
    split at hc
    · next small =>
      obtain rfl := List.mem_singleton.mp hc
      exact isAsciiDigit_digitChar small
    · obtain high | low := List.mem_append.mp hc
      · exact ih (n / 10) (by omega) c high
      · obtain rfl := List.mem_singleton.mp low
        exact isAsciiDigit_digitChar (Nat.mod_lt n (by decide))

private theorem toLower_digit {c : Char} (h : isAsciiDigit c = true) : c.toLower = c := by
  rw [isAsciiDigit_iff] at h
  have small : ¬ (c.val ≥ 65 ∧ c.val ≤ 90) := by
    intro upper
    have := UInt32.le_iff_toNat_le.mp upper.1
    change 65 ≤ c.toNat at this
    omega
  exact dif_neg small

private theorem dropUnderscores?_plain {text : List Char} (h : ∀ c ∈ text, isSpecial c = false)
    (afterDigit : Bool) : dropUnderscores? afterDigit text = some text := by
  induction text generalizing afterDigit with
  | nil => rfl
  | cons c rest ih =>
    have hc := h c List.mem_cons_self
    simp only [isSpecial, Bool.or_eq_false_iff, beq_eq_false_iff_ne] at hc
    rw [dropUnderscores?, if_neg hc.1.1.1.2, ih fun d hd ↦ h d (List.mem_cons_of_mem c hd)]
    rfl

private theorem parse?_decimal {whole fraction : List Char} (w : IsRun whole)
    (f : IsRun fraction) :
    Literal.parse? (whole ++ '.' :: fraction) =
      some (.decimal false ⟨valueOf (whole ++ fraction), -(fraction.length : Int)⟩) := by
  obtain ⟨first, rest, rfl⟩ := List.exists_cons_of_ne_nil w.nonempty
  have digit := w.digits first List.mem_cons_self
  have noSign : takeSign (first :: rest ++ '.' :: fraction) =
      (false, first :: rest ++ '.' :: fraction) := by
    apply takeSign_unsigned
    intro c hc
    cases hc
    exact digit_not_special digit
  -- A word would start with a letter.
  have noWord (word : String) (letter : word.toList.head?.any isAsciiDigit = false) :
      String.ofList ((first :: rest ++ '.' :: fraction).map Char.toLower) ≠ word := by
    rintro rfl
    simp [toLower_digit digit, digit] at letter
  have split := takeWhile_all (p := isAsciiDigit) w.digits ('.' :: fraction) (by simp; decide)
  have tail := takeWhile_all (p := isAsciiDigit) f.digits [] (by simp)
  rw [List.append_nil] at tail
  rw [Literal.parse?, noSign]
  simp only [noWord "nan" rfl, noWord "inf" rfl, noWord "infinity" rfl, or_self, if_false,
    Literal.decimal?, split, tail, List.isEmpty_cons, Bool.false_and, Bool.false_eq_true,
    Literal.exponent?, Option.map_some, Int.zero_sub]

/-- The whole part and the fraction of a number are joined to the decimal whose coefficient is the
run of both. -/
theorem joinReal_of_isRun {whole fraction : String} (w : IsRun whole.toList)
    (short : whole.toList.length ≤ maxDigits) (f : IsRun fraction.toList) :
    joinReal whole fraction = .ok (.ofDecimal false
      ⟨valueOf (whole.toList ++ fraction.toList), -(fraction.toList.length : Int)⟩) := by
  obtain ⟨n, denoted⟩ : ∃ n, n = valueOf whole.toList := ⟨_, rfl⟩
  have digits : ofInt (n : Int) = ofNat n := by simp [ofInt]
  have plain : ∀ c ∈ ofNat n ++ '.' :: fraction.toList, isSpecial c = false := by
    intro c hc
    obtain inWhole | inFraction := List.mem_append.mp hc
    · exact digit_not_special ((isRun_ofNat n).digits c inWhole)
    · obtain rfl | inFraction := List.mem_cons.mp inFraction
      · decide
      · exact digit_not_special (f.digits c inFraction)
  -- Zeros in front of the whole part are lost, and count for nothing.
  have same :
      valueOf (ofNat n ++ fraction.toList) = valueOf (whole.toList ++ fraction.toList) := by
    rw [valueOf, valueFrom_append, ← valueOf, valueOf_ofNat, denoted, valueOf, valueOf,
      valueFrom_append]
  have text : (String.ofList (ofInt n) ++ "." ++ fraction).toList =
      ofNat n ++ '.' :: fraction.toList := by
    simp [digits]
  have read : readReal? (String.ofList (ofInt n) ++ "." ++ fraction) =
      some (.ofDecimal false
        ⟨valueOf (whole.toList ++ fraction.toList), -(fraction.toList.length : Int)⟩) := by
    rw [readReal?, text, map_toAscii plain, stripBy_blank plain, dropUnderscores?_plain plain,
      Option.bind_some, parse?_decimal (isRun_ofNat n) f, same, Option.map_some, Literal.value]
  rw [joinReal, readInteger_of_isRun w short, ← denoted]
  simp only [bind, Except.bind, read]

end Manifest.Numeral
