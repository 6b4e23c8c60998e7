import Mathlib.Data.List.Basic
import Manifest.Json.Reader
import Manifest.Json.Writer
import Manifest.Proofs.Number.Fraction
import Manifest.Proofs.Number.Shortest

/-!
# Numbers in JSON text

A number is read part by part: a whole part, then perhaps a fraction and an exponent, up to a
character that cannot be in a number (`readNumber?_text`). A whole number that is written out is
read back (`readsNumber_ofInt`).

A double is written by the digits of a decimal, with a point and perhaps an exponent. The parts
that are read denote that decimal, though zeros may have moved between the coefficient and the
power of ten (`writesReal_writeDecimal`), and so the double is read back (`readsNumber_text`).
Without an exponent, these are two runs of digits with a point between them (`WritesPoint`).
-/

namespace Manifest.Json

open Numeral (IsRun isAsciiDigit isAsciiDigit_zeros valueOf valueOf_append_zeros
  valueOf_zeros_append maxDigits)

variable {rest : List Char}

/-- A number ends before a text that starts with none of its characters. -/
def EndsNumber (rest : List Char) : Prop :=
  ∀ c ∈ rest.head?, isAsciiDigit c = false ∧ c ≠ '.' ∧ c ≠ 'e' ∧ c ≠ 'E'

/-- The sign of a number. -/
def signOf (negative : Bool) : List Char := if negative then ['-'] else []

/-- A text is read as a number, namely as the datum given, wherever a number may end after it. -/
structure ReadsNumber (text : List Char) (datum : Json) : Prop where
  starts : ∃ negative digit more, text = signOf negative ++ digit :: more ∧
    isAsciiDigit digit = true
  read : ∀ rest offset, EndsNumber rest → ∃ after,
    readNumber? ⟨offset, text ++ rest⟩ = some (.ok (datum, ⟨after, rest⟩))

/-- The parts of an unsigned number: the digits before the point, those after it, and an
exponent. -/
structure Parts where
  whole : List Char
  fraction : List Char
  exponent : Option Int

namespace Parts

/-- The fraction with its point, if there is one. -/
def fractionText (p : Parts) : List Char := if p.fraction.isEmpty then [] else '.' :: p.fraction

/-- The exponent with its mark, if there is one. -/
def exponentText (p : Parts) : List Char := (p.exponent.map Layout.exponentPart).getD []

/-- The number written out. -/
def text (p : Parts) : List Char := p.whole ++ (p.fractionText ++ p.exponentText)

/-- There is neither a fraction nor an exponent. -/
def isWhole (p : Parts) : Bool := p.fraction.isEmpty && p.exponentText.isEmpty

/-- The decimal that the number is. -/
def decimal (p : Parts) : Decimal :=
  ⟨valueOf (p.whole ++ p.fraction), p.exponent.getD 0 - p.fraction.length⟩

/-- The whole part is a run of digits that starts with a zero only if it is a zero, and the
fraction has nothing but digits. -/
structure Plain (p : Parts) : Prop where
  run : IsRun p.whole
  leading : p.whole.head? = some '0' → p.whole = ['0']
  digits : ∀ c ∈ p.fraction, isAsciiDigit c = true

end Parts

/-! ### Reading the parts -/

private theorem wholeDigits?_append {whole : List Char} (run : IsRun whole)
    (leading : whole.head? = some '0' → whole = ['0'])
    (stop : ∀ c ∈ rest.head?, isAsciiDigit c = false) :
    wholeDigits? (whole ++ rest) = some whole := by
  obtain ⟨first, digits, rfl⟩ := List.exists_cons_of_ne_nil run.nonempty
  by_cases zero : first = '0'
  · subst zero
    rw [leading rfl]
    rfl
  · obtain ⟨digit, others⟩ := List.forall_mem_cons.mp run.digits
    rw [List.cons_append, wholeDigits?, if_pos digit, (Numeral.takeWhile_all others rest stop).1]
    exact zero

private theorem fractionDigits_append {fraction : List Char}
    (digits : ∀ c ∈ fraction, isAsciiDigit c = true)
    (stop : ∀ c ∈ rest.head?, isAsciiDigit c = false) :
    fractionDigits ('.' :: (fraction ++ rest)) = fraction :=
  (Numeral.takeWhile_all digits rest stop).1

private theorem fractionDigits_none (stop : ∀ c ∈ rest.head?, c ≠ '.') :
    fractionDigits rest = [] := by
  cases rest with
  | nil => rfl
  | cons c rest =>
    rw [fractionDigits]
    intro _ point
    exact stop c rfl (List.cons.inj point).1

private theorem exists_exponentPart (e : Int) :
    ∃ digits, Layout.exponentPart e = 'e' :: (if e < 0 then '-' else '+') :: digits ∧
      IsRun digits ∧ valueOf digits = e.natAbs := by
  have run := Numeral.isRun_ofNat e.natAbs
  by_cases short : (Numeral.ofNat e.natAbs).length < 2
  · refine ⟨'0' :: Numeral.ofNat e.natAbs, ?_, ?_, Numeral.valueOf_ofNat e.natAbs⟩
    · simp only [Layout.exponentPart, if_pos short]
    · exact ⟨List.cons_ne_nil _ _, List.forall_mem_cons.mpr ⟨rfl, run.digits⟩⟩
  · refine ⟨Numeral.ofNat e.natAbs, ?_, run, Numeral.valueOf_ofNat e.natAbs⟩
    simp only [Layout.exponentPart, if_neg short]

private theorem exponentChars_exponentPart (e : Int)
    (stop : ∀ c ∈ rest.head?, isAsciiDigit c = false) :
    exponentChars (Layout.exponentPart e ++ rest) = Layout.exponentPart e := by
  obtain ⟨digits, shape, run, -⟩ := exists_exponentPart e
  have taken := (Numeral.takeWhile_all run.digits rest stop).1
  have nonempty := List.isEmpty_eq_false_iff.mpr run.nonempty
  rw [shape]
  split <;> simp [exponentChars, taken, nonempty]

private theorem exponentChars_none (stop : ∀ c ∈ rest.head?, c ≠ 'e' ∧ c ≠ 'E') :
    exponentChars rest = [] := by
  cases rest with
  | nil => rfl
  | cons c rest =>
    obtain ⟨lower, upper⟩ := stop c rfl
    simp [exponentChars, lower, upper]

private theorem exponent?_exponentPart (e : Int) :
    Literal.exponent? (Layout.exponentPart e) = some e := by
  obtain ⟨digits, shape, run, value⟩ := exists_exponentPart e
  have digits_eq : digits.all isAsciiDigit = true := List.all_eq_true.mpr run.digits
  have nonempty := List.isEmpty_eq_false_iff.mpr run.nonempty
  have marked : (('e' : Char) == 'e' || 'e' == 'E') = true := rfl
  rw [shape]
  by_cases negative : e < 0
  · rw [if_pos negative]
    simp only [Literal.exponent?, Numeral.takeSign, marked, nonempty, digits_eq, value,
      Bool.not_false, Bool.and_self, if_true, Option.some.injEq]
    omega
  · rw [if_neg negative]
    simp only [Literal.exponent?, Numeral.takeSign, marked, nonempty, digits_eq, value,
      Bool.not_false, Bool.and_self, if_true, Bool.false_eq_true, if_false, Option.some.injEq]
    omega

/-! ### Reading a number -/

section Parts

variable {p : Parts}

private theorem head_exponentText (ends : EndsNumber rest) :
    ∀ c ∈ (p.exponentText ++ rest).head?, isAsciiDigit c = false ∧ c ≠ '.' := by
  intro c first
  cases exponent : p.exponent with
  | none =>
    rw [Parts.exponentText, exponent] at first
    obtain ⟨digit, point, -⟩ := ends c first
    exact ⟨digit, point⟩
  | some e =>
    rw [Parts.exponentText, exponent] at first
    cases first
    exact ⟨rfl, by decide⟩

private theorem head_fractionText (ends : EndsNumber rest) :
    ∀ c ∈ (p.fractionText ++ (p.exponentText ++ rest)).head?, isAsciiDigit c = false := by
  intro c first
  rw [Parts.fractionText] at first
  split at first
  · exact (head_exponentText ends c first).1
  · cases first
    rfl

private theorem fractionDigits_fractionText (plain : p.Plain) (ends : EndsNumber rest) :
    fractionDigits (p.fractionText ++ (p.exponentText ++ rest)) = p.fraction := by
  rw [Parts.fractionText]
  split
  · next none =>
    rw [List.isEmpty_iff.mp none, List.nil_append]
    apply fractionDigits_none
    intro c first
    exact (head_exponentText ends c first).2
  · apply fractionDigits_append plain.digits
    intro c first
    exact (head_exponentText ends c first).1

private theorem length_fractionText :
    (if p.fraction.isEmpty then 0 else p.fraction.length + 1) = p.fractionText.length := by
  rw [Parts.fractionText]
  split <;> rfl

private theorem exponentChars_exponentText (ends : EndsNumber rest) :
    exponentChars (p.exponentText ++ rest) = p.exponentText := by
  rw [Parts.exponentText]
  cases p.exponent with
  | none =>
    apply exponentChars_none
    intro c first
    exact (ends c first).2.2
  | some e =>
    apply exponentChars_exponentPart
    intro c first
    exact (ends c first).1

private theorem exponent?_exponentText :
    (Literal.exponent? p.exponentText).getD 0 = p.exponent.getD 0 := by
  rw [Parts.exponentText]
  cases p.exponent with
  | none => rfl
  | some e => exact congrArg (·.getD 0) (exponent?_exponentPart e)

private theorem sign_text (plain : p.Plain) (negative : Bool) :
    (if (signOf negative ++ (p.text ++ rest)).head? == some '-' then ['-'] else []) =
      signOf negative := by
  obtain ⟨first, digits, whole⟩ := List.exists_cons_of_ne_nil plain.run.nonempty
  have digit : isAsciiDigit first = true := plain.run.digits first (whole ▸ List.mem_cons_self)
  have unsigned : ¬ first = '-' := by
    rintro rfl
    cases digit
  cases negative with
  | true => rfl
  | false => simp [signOf, Parts.text, whole, unsigned]

private theorem Parts.Plain.starts (plain : p.Plain) (negative : Bool) :
    ∃ negative' digit more, signOf negative ++ p.text = signOf negative' ++ digit :: more ∧
      isAsciiDigit digit = true := by
  obtain ⟨first, digits, whole⟩ := List.exists_cons_of_ne_nil plain.run.nonempty
  refine ⟨negative, first, digits ++ (p.fractionText ++ p.exponentText), ?_, ?_⟩
  · rw [Parts.text, whole]
    rfl
  · exact plain.run.digits first (whole ▸ List.mem_cons_self)

/-- A number is read part by part. -/
theorem readNumber?_text (plain : p.Plain) (ends : EndsNumber rest) (negative : Bool)
    (offset : Nat) :
    ∃ after, readNumber? ⟨offset, signOf negative ++ (p.text ++ rest)⟩ = some
      (if p.isWhole then
        if maxDigits < p.whole.length then .error (.numeral (.tooLong p.whole.length))
        else .ok (.integer (if negative then -valueOf p.whole else valueOf p.whole), ⟨after, rest⟩)
      else .ok (.real (.ofDecimal negative p.decimal), ⟨after, rest⟩)) := by
  obtain ⟨sign, signed⟩ : ∃ sign, sign = signOf negative := ⟨_, rfl⟩
  obtain ⟨text, written⟩ : ∃ text, text = signOf negative ++ (p.text ++ rest) := ⟨_, rfl⟩
  have body : text.drop sign.length = p.whole ++ (p.fractionText ++ (p.exponentText ++ rest)) := by
    rw [written, signed, List.drop_left, Parts.text, List.append_assoc, List.append_assoc]
  have afterWhole : text.drop (sign.length + p.whole.length) =
      p.fractionText ++ (p.exponentText ++ rest) := by
    rw [← List.drop_drop, body, List.drop_left]
  -- Each part is left behind by its length, so that the next one stands in front.
  have afterAll : text.drop
      (sign.length + p.whole.length + p.fractionText.length + p.exponentText.length) = rest := by
    rw [← List.drop_drop, ← List.drop_drop, afterWhole, List.drop_left, List.drop_left]
  have unsigned : sign.isEmpty = !negative := by
    rw [signed]
    cases negative <;> rfl
  refine ⟨offset + (sign.length + p.whole.length + p.fractionText.length +
    p.exponentText.length), ?_⟩
  have front := @sign_text rest p plain negative
  rw [← written, ← signed] at front
  rw [← written, readNumber?]
  simp only [front, body, wholeDigits?_append plain.run plain.leading (head_fractionText ends),
    afterWhole, fractionDigits_fractionText plain ends, length_fractionText, List.drop_left,
    exponentChars_exponentText ends, exponent?_exponentText, Rest.skip, afterAll, unsigned,
    Option.map_some, Bool.not_not, Parts.isWhole, Parts.decimal]
  cases negative <;> rfl

end Parts

/-! ### Whole numbers -/

private theorem ofNat_leading {n : Nat} (zero : (Numeral.ofNat n).head? = some '0') :
    Numeral.ofNat n = ['0'] := by
  induction n using Nat.strongRecOn with
  | ind n ih =>
    rw [Numeral.ofNat] at zero ⊢
    split at zero
    · next small =>
      rw [if_pos small]
      exact congrArg (· :: []) (Option.some.inj zero)
    · next large =>
      exfalso
      rw [List.head?_append_of_ne_nil _ (Numeral.ofNat_ne_nil _)] at zero
      have value := congrArg valueOf (ih (n / 10) (by omega) zero)
      rw [Numeral.valueOf_ofNat] at value
      have : valueOf ['0'] = 0 := rfl
      omega

private theorem ofInt_eq (n : Int) :
    Numeral.ofInt n = signOf (decide (n < 0)) ++ Numeral.ofNat n.natAbs := by
  by_cases negative : n < 0 <;> simp [Numeral.ofInt, signOf, negative]

/-- A whole number of not too many digits is read back. -/
theorem readsNumber_ofInt {n : Int} (short : Numeral.width n.natAbs ≤ maxDigits) :
    ReadsNumber (Numeral.ofInt n) (.integer n) := by
  let p : Parts := ⟨Numeral.ofNat n.natAbs, [], none⟩
  have plain : p.Plain := ⟨Numeral.isRun_ofNat _, ofNat_leading, by simp [p]⟩
  have text : p.text = Numeral.ofNat n.natAbs := List.append_nil _
  have whole : p.isWhole = true := rfl
  have length : ¬ maxDigits < (Numeral.ofNat n.natAbs).length := by
    rw [Numeral.length_ofNat]
    omega
  rw [ofInt_eq, ← text]
  refine ⟨plain.starts _, fun rest offset ends ↦ ?_⟩
  obtain ⟨after, read⟩ := readNumber?_text plain ends (decide (n < 0)) offset
  refine ⟨after, ?_⟩
  rw [List.append_assoc, read, if_pos whole, if_neg length, Numeral.valueOf_ofNat]
  by_cases negative : n < 0
  · have number : -(n.natAbs : Int) = n := by omega
    rw [if_pos (by simp [negative]), number]
  · have number : (n.natAbs : Int) = n := by omega
    rw [if_neg (by simp [negative]), number]

/-! ### Floating point numbers -/

/-- A text is read, with any sign, as the double nearest to a decimal. -/
def WritesReal (text : List Char) (d : Decimal) : Prop :=
  ∃ p : Parts, text = p.text ∧ p.Plain ∧ p.isWhole = false ∧
    ∀ negative, (Binary.ofDecimal negative p.decimal : Double) = .ofDecimal negative d

/-- A text is two runs of digits with a point between them, the first of them with a zero in front
only if it is a zero, and is read, with any sign, as the double nearest to a decimal. -/
def WritesPoint (text : List Char) (d : Decimal) : Prop :=
  ∃ whole fraction : List Char, text = whole ++ '.' :: fraction ∧ IsRun whole ∧
    (whole.head? = some '0' → whole = ['0']) ∧ IsRun fraction ∧
    ∀ negative,
      (Binary.ofDecimal negative ⟨valueOf (whole ++ fraction), -(fraction.length : Int)⟩ :
      Double) = .ofDecimal negative d

private theorem WritesPoint.writesReal {text : List Char} {d : Decimal}
    (writes : WritesPoint text d) :
    WritesReal text d := by
  obtain ⟨whole, fraction, rfl, run, leading, after, nearest⟩ := writes
  have nonempty : fraction.isEmpty = false := List.isEmpty_eq_false_iff.mpr after.nonempty
  refine ⟨⟨whole, fraction, none⟩, ?_, ⟨run, leading, after.digits⟩, ?_, fun negative ↦ ?_⟩
  · simp [Parts.text, Parts.fractionText, Parts.exponentText, nonempty]
  · rw [Parts.isWhole, nonempty, Bool.false_and]
  · rw [Parts.decimal, Option.getD_none, Int.zero_sub]
    exact nearest negative

section Positional

variable {digits : List Char} {point : Int}

private theorem writesPoint_below (run : IsRun digits) (below : point ≤ 0) :
    WritesPoint ('0' :: '.' :: (List.replicate (-point).toNat '0' ++ digits))
      ⟨valueOf digits, point - digits.length⟩ := by
  refine ⟨['0'], List.replicate (-point).toNat '0' ++ digits, rfl, ⟨?_, ?_⟩, fun _ ↦ rfl,
    ⟨?_, ?_⟩, ?_⟩
  · exact List.cons_ne_nil _ _
  · exact List.forall_mem_singleton.mpr rfl
  · simp [run.nonempty]
  · exact List.forall_mem_append.mpr ⟨isAsciiDigit_zeros _, run.digits⟩
  · intro negative
    have value : valueOf (['0'] ++ (List.replicate (-point).toNat '0' ++ digits)) =
        valueOf digits := valueOf_zeros_append ((-point).toNat + 1) digits
    have exponent : -((List.replicate (-point).toNat '0' ++ digits).length : Int) =
        point - digits.length := by
      rw [List.length_append, List.length_replicate]
      omega
    rw [value, exponent]

private theorem writesPoint_beyond (run : IsRun digits) (leading : digits.head? ≠ some '0')
    (beyond : digits.length ≤ point) :
    WritesPoint (digits ++ List.replicate (point.toNat - digits.length) '0' ++ ['.', '0'])
      ⟨valueOf digits, point - digits.length⟩ := by
  refine ⟨digits ++ List.replicate (point.toNat - digits.length) '0', ['0'], rfl, ⟨?_, ?_⟩, ?_,
    ⟨?_, ?_⟩, ?_⟩
  · simp [run.nonempty]
  · exact List.forall_mem_append.mpr ⟨run.digits, isAsciiDigit_zeros _⟩
  · intro zero
    rw [List.head?_append_of_ne_nil _ run.nonempty] at zero
    exact absurd zero leading
  · exact List.cons_ne_nil _ _
  · exact List.forall_mem_singleton.mpr rfl
  · -- The zeros up to the point and the one after it belong to the coefficient that is read.
    intro negative
    let zeros := point.toNat - digits.length + 1
    have value : valueOf (digits ++ List.replicate (point.toNat - digits.length) '0' ++ ['0']) =
        valueOf digits * 10 ^ zeros := by
      rw [List.append_assoc, ← List.replicate_succ', valueOf_append_zeros]
    have exponent : (-1 : Int) + zeros = point - digits.length := by
      omega
    rw [value, ← exponent]
    exact Binary.ofDecimal_mul_pow Binary.reach_double negative (valueOf digits) zeros (-1)

private theorem writesPoint_within (run : IsRun digits) (leading : digits.head? ≠ some '0')
    (above : 0 < point) (within : point < digits.length) :
    WritesPoint (digits.take point.toNat ++ '.' :: digits.drop point.toNat)
      ⟨valueOf digits, point - digits.length⟩ := by
  refine ⟨digits.take point.toNat, digits.drop point.toNat, rfl, ⟨?_, ?_⟩, ?_, ⟨?_, ?_⟩, ?_⟩
  · intro empty
    have length := congrArg List.length empty
    rw [List.length_take, List.length_nil] at length
    omega
  · exact fun c inside ↦ run.digits c (List.mem_of_mem_take inside)
  · intro zero
    rw [List.head?_take, if_neg (by omega)] at zero
    exact absurd zero leading
  · rw [ne_eq, List.drop_eq_nil_iff]
    omega
  · exact fun c inside ↦ run.digits c (List.mem_of_mem_drop inside)
  · intro negative
    have exponent : -((digits.drop point.toNat).length : Int) = point - digits.length := by
      rw [List.length_drop]
      omega
    rw [List.take_append_drop, exponent]

private theorem writesPoint_positional (run : IsRun digits) (leading : digits.head? ≠ some '0')
    (point : Int) :
    WritesPoint (Layout.plain.positional digits point)
      ⟨valueOf digits, point - digits.length⟩ := by
  unfold Layout.positional
  split
  · next below => exact writesPoint_below run below
  · next above =>
    split
    · next beyond => exact writesPoint_beyond run leading beyond
    · next within =>
      exact writesPoint_within run leading (Int.not_le.mp above) (Int.not_le.mp within)

end Positional

private theorem writesReal_scientific {digits : List Char} (run : IsRun digits)
    (leading : digits.head? ≠ some '0') (exponent : Int) :
    WritesReal (Layout.scientific digits exponent)
      ⟨valueOf digits, exponent + 1 - digits.length⟩ := by
  obtain ⟨first, others, rfl⟩ := List.exists_cons_of_ne_nil run.nonempty
  obtain ⟨digit, digits⟩ := List.forall_mem_cons.mp run.digits
  have marked : ((Layout.exponentPart exponent).isEmpty) = false := rfl
  have shape : Layout.scientific (first :: others) exponent =
      (⟨[first], others, some exponent⟩ : Parts).text := by
    cases others <;> simp [Layout.scientific, Parts.text, Parts.fractionText, Parts.exponentText]
  refine ⟨⟨[first], others, some exponent⟩, shape, ⟨⟨?_, ?_⟩, ?_, digits⟩, ?_, ?_⟩
  · exact List.cons_ne_nil _ _
  · exact List.forall_mem_singleton.mpr digit
  · exact fun zero ↦ absurd zero leading
  · exact Bool.and_false _
  · intro negative
    have places : exponent - others.length = exponent + 1 - (first :: others).length := by
      rw [List.length_cons]
      omega
    rw [Parts.decimal, Option.getD_some, places, List.singleton_append]

private theorem exists_zeros (text : List Char) :
    ∃ zeros, text = (text.reverse.dropWhile (· == '0')).reverse ++ List.replicate zeros '0' := by
  have zeros : ∀ c ∈ text.reverse.takeWhile (· == '0'), c = '0' := by
    intro c inside
    exact beq_iff_eq.mp (List.all_eq_true.mp List.all_takeWhile c inside)
  have parts := congrArg List.reverse (List.takeWhile_append_dropWhile (p := (· == '0'))
    (l := text.reverse))
  rw [List.reverse_append, List.reverse_reverse, List.eq_replicate_of_mem zeros,
    List.reverse_replicate] at parts
  exact ⟨_, parts.symm⟩

-- Without the zeros at its end, a number other than zero has digits that do not start with one.
private theorem exists_significant (n : Nat) :
    ∃ digits zeros, ((Numeral.ofNat n).reverse.dropWhile (· == '0')).reverse = digits ∧
      Numeral.ofNat n = digits ++ List.replicate zeros '0' ∧
      (digits = [] ∧ n = 0 ∨ IsRun digits ∧ digits.head? ≠ some '0') := by
  obtain ⟨zeros, shape⟩ := exists_zeros (Numeral.ofNat n)
  refine ⟨_, zeros, rfl, shape, ?_⟩
  by_cases empty : ((Numeral.ofNat n).reverse.dropWhile (· == '0')).reverse = []
  · rw [empty] at shape
    have value := congrArg valueOf shape
    rw [Numeral.valueOf_ofNat, valueOf_append_zeros] at value
    exact .inl ⟨empty, value.trans (Nat.zero_mul _)⟩
  · refine .inr ⟨⟨empty, fun d inside ↦ (Numeral.isRun_ofNat n).digits d ?_⟩, fun zero ↦ ?_⟩
    · rw [shape]
      exact List.mem_append_left _ inside
    · have alone : Numeral.ofNat n = ['0'] := by
        apply ofNat_leading
        rw [shape, List.head?_append_of_ne_nil _ empty, zero]
      rw [alone] at empty
      exact empty rfl

private theorem WritesPoint.congr {text : List Char} {d d' : Decimal}
    (writes : WritesPoint text d')
    (same : ∀ negative, (Binary.ofDecimal negative d' : Double) = .ofDecimal negative d) :
    WritesPoint text d := by
  obtain ⟨whole, fraction, written, run, leading, after, nearest⟩ := writes
  exact ⟨whole, fraction, written, run, leading, after,
    fun negative ↦ (nearest negative).trans (same negative)⟩

private theorem WritesReal.congr {text : List Char} {d d' : Decimal} (writes : WritesReal text d')
    (same : ∀ negative, (Binary.ofDecimal negative d' : Double) = .ofDecimal negative d) :
    WritesReal text d := by
  obtain ⟨p, written, plain, real, nearest⟩ := writes
  exact ⟨p, written, plain, real, fun negative ↦ (nearest negative).trans (same negative)⟩

private theorem ofDecimal_zero (negative : Bool) {d : Decimal} (zero : d.coefficient = 0) :
    (Binary.ofDecimal negative d : Double) = .zero negative := by
  rw [Binary.ofDecimal, if_pos (.inl zero)]

private theorem writesPoint_zero (exponent : Int) :
    WritesPoint (Layout.plain.positional ['0'] 1) ⟨0, exponent⟩ := by
  have run : IsRun ['0'] := ⟨List.cons_ne_nil _ _, List.forall_mem_singleton.mpr rfl⟩
  refine ⟨['0'], ['0'], rfl, run, fun _ ↦ rfl, run, fun negative ↦ ?_⟩
  rw [ofDecimal_zero negative rfl, ofDecimal_zero negative rfl]

/-- A decimal is written with a point and no exponent, unless its leading digit is too far from the
point, and in any case as a number that is read as the double nearest to it. -/
theorem writesPoint_or_writesReal (d : Decimal) :
    WritesPoint (Layout.plain.writeDecimal d) d ∨
      d.coefficient ≠ 0 ∧ (d.magnitude < -3 ∨ 16 < d.magnitude) ∧
        WritesReal (Layout.plain.writeDecimal d) d := by
  obtain ⟨c, e⟩ := d
  obtain ⟨digits, zeros, stripped, shape, significant⟩ := exists_significant c
  unfold Layout.writeDecimal
  dsimp only
  rw [stripped]
  obtain ⟨rfl, rfl⟩ | ⟨run, leading⟩ := significant
  · exact .inl (writesPoint_zero e)
  · have value : c = valueOf digits * 10 ^ zeros := by
      rw [← valueOf_append_zeros, ← shape, Numeral.valueOf_ofNat]
    have exponent : (Numeral.ofNat c).length + e - digits.length = e + zeros := by
      rw [shape, List.length_append, List.length_replicate]
      push_cast
      ring
    have moved (negative : Bool) : (Binary.ofDecimal negative
        ⟨valueOf digits, (Numeral.ofNat c).length + e - digits.length⟩ : Double) =
          .ofDecimal negative ⟨c, e⟩ := by
      rw [exponent, ← Binary.ofDecimal_mul_pow Binary.reach_double, ← value]
    rw [if_neg (by simp [run.nonempty])]
    split
    · exact .inl ((writesPoint_positional run leading _).congr moved)
    · next outside =>
      have nonzero : c ≠ 0 := by
        rintro rfl
        rw [← List.head?_append_of_ne_nil digits run.nonempty, ← shape] at leading
        exact leading (by rw [Numeral.ofNat, if_pos (by decide)]; rfl)
      have far : Decimal.magnitude ⟨c, e⟩ < -3 ∨ 16 < Decimal.magnitude ⟨c, e⟩ := by
        simp only [Layout.plain, Numeral.length_ofNat] at outside
        rw [Decimal.magnitude]
        dsimp only
        omega
      refine .inr ⟨nonzero, far, (writesReal_scientific run leading _).congr ?_⟩
      simpa only [Int.sub_add_cancel] using moved

/-- A decimal is written as a number that is read as the double nearest to it. -/
theorem writesReal_writeDecimal (d : Decimal) : WritesReal (Layout.plain.writeDecimal d) d := by
  obtain writes | ⟨-, -, writes⟩ := writesPoint_or_writesReal d
  · exact writes.writesReal
  · exact writes

/-- A finite double is written as a decimal that it is the nearest double to. -/
theorem exists_text_eq (negative : Bool) {rank : Nat} (h : rank ≤ Format.double.infinity)
    (finite : rank ≠ Format.double.infinity) :
    ∃ d : Decimal,
      Binary.text (.signed negative rank h) = signOf negative ++ Layout.plain.writeDecimal d ∧
        (Binary.ofDecimal negative d : Double) = .signed negative rank h := by
  by_cases zero : rank = 0
  · subst zero
    refine ⟨⟨0, 0⟩, ?_, ofDecimal_zero negative rfl⟩
    rw [Binary.text, Layout.write, if_neg finite, if_pos rfl]
    rfl
  · refine ⟨Binary.shortest (f := .double) rank, ?_,
      Binary.ofDecimal_shortest Binary.reach_double negative h⟩
    rw [Binary.text, Layout.write, if_neg finite, if_neg zero]
    rfl

/-- A finite double is read back from its text. -/
theorem readsNumber_text {negative : Bool} {rank : Nat} (h : rank ≤ Format.double.infinity)
    (finite : rank ≠ Format.double.infinity) :
    ReadsNumber (Binary.text (.signed negative rank h)) (.real (.signed negative rank h)) := by
  obtain ⟨d, written, nearest⟩ := exists_text_eq negative h finite
  obtain ⟨p, shape, plain, real, same⟩ := writesReal_writeDecimal d
  rw [written, shape]
  refine ⟨plain.starts negative, fun rest offset ends ↦ ?_⟩
  obtain ⟨after, read⟩ := readNumber?_text plain ends negative offset
  exact ⟨after, by rw [List.append_assoc, read, if_neg (by simp [real]), same, nearest]⟩

/-- A number starts with a minus sign or a digit. -/
theorem ReadsNumber.exists_cons {text : List Char} {datum : Json}
    (reads : ReadsNumber text datum) :
    ∃ c more, text = c :: more ∧ (c = '-' ∨ isAsciiDigit c = true) := by
  obtain ⟨negative, digit, more, rfl, isDigit⟩ := reads.starts
  cases negative with
  | true => exact ⟨'-', digit :: more, rfl, .inl rfl⟩
  | false => exact ⟨digit, more, rfl, .inr isDigit⟩

/-- Where a number stands, nothing else is read. -/
theorem ReadsNumber.readValue {text : List Char} {datum : Json} (reads : ReadsNumber text datum)
    (ends : EndsNumber rest) (steps offset : Nat) :
    ∃ after, readValue (steps + 1) ⟨offset, text ++ rest⟩ = .ok (datum, ⟨after, rest⟩) := by
  obtain ⟨after, read⟩ := reads.read rest offset ends
  obtain ⟨negative, digit, more, rfl, isDigit⟩ := reads.starts
  have other (c : Char) (noDigit : isAsciiDigit c = false) : c ≠ digit := by
    rintro rfl
    rw [isDigit] at noDigit
    cases noDigit
  have noWord : readWord? ⟨offset, signOf negative ++ digit :: more ++ rest⟩ = none := by
    cases negative <;>
      simp [readWord?, words, signOf, other 'n' rfl, other 't' rfl, other 'f' rfl, other 'N' rfl,
        other 'I' rfl, other '-' rfl]
  have noMark {c : Char} {tail : List Char} (noDigit : isAsciiDigit c = false)
      (unsigned : '-' ≠ c) :
      signOf negative ++ digit :: more ++ rest ≠ c :: tail := by
    intro same
    cases negative with
    | true => exact unsigned (List.cons.inj same).1
    | false => exact other c noDigit (List.cons.inj same).1.symm
  refine ⟨after, ?_⟩
  rw [Json.readValue]
  split
  · next quote => exact absurd quote (noMark rfl (by decide))
  · next bracket => exact absurd bracket (noMark rfl (by decide))
  · next brace => exact absurd brace (noMark rfl (by decide))
  · rw [noWord, read]
    rfl

end Manifest.Json
