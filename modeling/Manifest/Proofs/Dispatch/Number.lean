import Manifest.Document.Reading
import Manifest.Dispatch.Standard
import Manifest.Proofs.Number.Script

/-!
# Numbers from texts

The function `number` takes the blanks off a text. What is left is the number of its decimal
digits, of whatever script they are, or invalid data if some of it has not the digit property or
nothing is left. Between the two are texts of characters with the digit property of which one is no
decimal digit: they are let through as digits and then not read as a number
(`Standard.toNumber_text`).
-/

namespace Manifest.Standard

open Text (stripBy isBlank isDigit decimalValue? IsDecimal denoted)
open Numeral (IsRun readInteger maxDigits valueOf)
open Document (maxInteger)

variable {s : String}

private theorem toNumber_invalidData
    (other : stripBy isBlank s.toList = [] ∨ ∃ c ∈ stripBy isBlank s.toList, isDigit c = false) :
    toNumber (.text s) = .error (.invalidData (.text s)) := by
  have refused :
      ((stripBy isBlank s.toList).isEmpty || !(stripBy isBlank s.toList).all isDigit) = true := by
    rw [Bool.or_eq_true, List.isEmpty_iff, Bool.not_eq_true', List.all_eq_false]
    simpa using other
  simp only [toNumber, refused, if_true]

private theorem isEmpty_or_not_all_eq_false (nonempty : stripBy isBlank s.toList ≠ [])
    (digits : ∀ c ∈ stripBy isBlank s.toList, isDigit c = true) :
    ((stripBy isBlank s.toList).isEmpty || !(stripBy isBlank s.toList).all isDigit) = false := by
  rw [Bool.or_eq_false_iff, List.isEmpty_eq_false_iff, Bool.not_eq_false', List.all_eq_true]
  exact ⟨nonempty, digits⟩

private theorem toNumber_error {fault : Numeral.Fault} (nonempty : stripBy isBlank s.toList ≠ [])
    (digits : ∀ c ∈ stripBy isBlank s.toList, isDigit c = true)
    (read : readInteger (String.ofList (stripBy isBlank s.toList)) = .error fault) :
    toNumber (.text s) = .error (.numeral fault) := by
  simp only [toNumber, isEmpty_or_not_all_eq_false nonempty digits, Bool.false_eq_true,
    if_false, read]

private theorem toNumber_ok {n : Nat} (nonempty : stripBy isBlank s.toList ≠ [])
    (digits : ∀ c ∈ stripBy isBlank s.toList, isDigit c = true)
    (read : readInteger (String.ofList (stripBy isBlank s.toList)) = .ok n) :
    toNumber (.text s) =
      if (n : Int) ≤ maxInteger then .ok (.value (.number (Int32.ofInt n)))
      else .error (.invalid ⟨"Number", [⟨["value"], .outOfRange n, .plain (.integer n)⟩]⟩) := by
  have range : Validation.inRange n = decide ((n : Int) ≤ maxInteger) := by
    rw [Validation.inRange, maxInteger, decide_eq_true (by omega), Bool.true_and]
  simp only [toNumber, isEmpty_or_not_all_eq_false nonempty digits, Bool.false_eq_true, if_false,
    read, Value.ofInt, range, decide_eq_true_eq]
  split <;> rfl

private theorem isDigit_of_isAsciiDigit {c : Char} (digit : Numeral.isAsciiDigit c = true) :
    isDigit c = true ∧ isBlank c = false := by
  have ten : ∀ n : Fin 10, isDigit (Char.ofNat (48 + n)) = true ∧
      isBlank (Char.ofNat (48 + n)) = false := by
    decide
  have range := (Numeral.isAsciiDigit_iff c).mp digit
  have same : 48 + (c.toNat - 48) = c.toNat := by omega
  have one := ten ⟨c.toNat - 48, by omega⟩
  dsimp only at one
  rwa [same, Char.ofNat_toNat] at one

/-- A run of digits in plain notation is turned into the number that it denotes, up to the greatest
of 32 bits. -/
theorem toNumber_of_isRun {digits : List Char} (run : IsRun digits)
    (short : digits.length ≤ maxDigits) :
    toNumber (.text (String.ofList digits)) =
      if (valueOf digits : Int) ≤ maxInteger then
        .ok (.value (.number (Int32.ofInt (valueOf digits))))
      else .error (.invalid ⟨"Number",
        [⟨["value"], .outOfRange (valueOf digits), .plain (.integer (valueOf digits))⟩]⟩) := by
  have text : stripBy isBlank (String.ofList digits).toList = digits := by
    rw [String.toList_ofList,
      Text.stripBy_eq_self fun c inside ↦ (isDigit_of_isAsciiDigit (run.digits c inside)).2]
  have listed : IsRun (String.ofList digits).toList := by rwa [String.toList_ofList]
  apply toNumber_ok
  · rw [text]
    exact run.nonempty
  · rw [text]
    exact fun c inside ↦ (isDigit_of_isAsciiDigit (run.digits c inside)).1
  · rw [text, Numeral.readInteger_of_isRun listed (by rwa [String.toList_ofList]),
      String.toList_ofList]

/-- A text of decimal digits of any script with blanks around it is turned into the number that the
digits denote. One that is no such text is invalid data if nothing is left without the blanks or a
character has not the digit property. Otherwise it is let through as digits and refused by the
reader of whole numbers. -/
theorem toNumber_text (s : String) :
    let text := stripBy isBlank s.toList
    let leading := text.takeWhile fun c ↦ (decimalValue? c).isSome
    (IsDecimal text → text.length ≤ maxDigits → (denoted text : Int) ≤ maxInteger →
      ∃ n : Int32, toNumber (.text s) = .ok (.value (.number n)) ∧ n.toInt = denoted text) ∧
    (¬ IsDecimal text →
      (text = [] ∨ (∃ c ∈ text, isDigit c = false) →
        toNumber (.text s) = .error (.invalidData (.text s))) ∧
      (text ≠ [] → (∀ c ∈ text, isDigit c = true) →
        toNumber (.text s) =
          .error (.numeral (if maxDigits < leading.length then .tooLong leading.length
            else .malformed (String.ofList text))))) := by
  intro text leading
  constructor
  · intro run short small
    have digits : ∀ c ∈ text, isDigit c = true := by
      intro c inside
      obtain ⟨_, digit⟩ := Option.isSome_iff_exists.mp (run.digits c inside)
      exact Text.isDigit_of_decimalValue? digit
    have read : readInteger (String.ofList text) = .ok (denoted text : Nat) := by
      rw [Numeral.readInteger_isDecimal run, if_neg (Nat.not_lt.mpr short)]
    refine ⟨Int32.ofInt (denoted text), ?_, ?_⟩
    · rw [toNumber_ok run.nonempty digits read, if_pos small]
    · rw [maxInteger] at small
      exact Int32.toInt_ofInt_of_le (by omega) (by omega)
  · intro otherwise
    refine ⟨toNumber_invalidData, fun nonempty digits ↦ ?_⟩
    have other : ∃ c ∈ text, decimalValue? c = none := by
      by_contra numeral
      apply otherwise
      refine ⟨nonempty, fun c inside ↦ ?_⟩
      by_contra noValue
      exact numeral ⟨c, inside, Option.not_isSome_iff_eq_none.mp noValue⟩
    exact toNumber_error nonempty digits (Numeral.readInteger_of_isDigit digits other)

/-- Arabic digits with blanks around them are turned into a number. -/
theorem toNumber_text_arabic :
    ∃ n : Int32, toNumber (.text " ٤٢\n") = .ok (.value (.number n)) ∧ n.toInt = 42 := by
  have text : stripBy isBlank " ٤٢\n".toList = ['٤', '٢'] := by decide +kernel
  have value : denoted ['٤', '٢'] = 42 := by decide +kernel
  have run : IsDecimal ['٤', '٢'] :=
    ⟨List.cons_ne_nil _ _, List.all_eq_true.mp (by decide +kernel)⟩
  obtain ⟨n, number, denotes⟩ := (toNumber_text " ٤٢\n").1 (text ▸ run) (by rw [text]; decide)
    (by rw [text, value]; decide)
  exact ⟨n, number, by rw [denotes, text, value]; rfl⟩

/-- A superscript is let through as a digit and then refused by the reader of whole numbers. -/
theorem toNumber_text_superscript :
    ¬ IsDecimal (stripBy isBlank "²".toList) ∧
      toNumber (.text "²") = .error (.numeral (.malformed "²")) ∧
      toNumber (.text "²") ≠ .error (.invalidData (.text "²")) := by
  obtain ⟨noValue, digit⟩ := Text.decimalValue?_superscript
  have text : stripBy isBlank "²".toList = ['²'] := by decide +kernel
  have digits : ∀ c ∈ ['²'], isDigit c = true := List.forall_mem_singleton.mpr digit
  have read := Numeral.readInteger_of_isDigit digits ⟨'²', List.mem_singleton_self _, noValue⟩
  have refused : toNumber (.text "²") = .error (.numeral (.malformed "²")) := by
    apply toNumber_error
    · rw [text]
      exact List.cons_ne_nil _ _
    · rwa [text]
    · rw [text, read]
      rfl
  refine ⟨?_, refused, by rw [refused]; simp⟩
  rw [text]
  intro run
  have value := run.digits '²' (List.mem_singleton_self _)
  rw [noValue] at value
  cases value

end Manifest.Standard
