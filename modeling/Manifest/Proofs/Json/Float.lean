import Manifest.Proofs.Document.Point
import Manifest.Proofs.Json.Number
import Manifest.Proofs.Number.Narrowing
import Manifest.Value.Projection

/-!
# Floats that are printed and read

A float that is zero, or at least a ten thousandth and less than 2^31, is printed as two runs of
digits with a point between them: the decimal that its double is written by has its leading digit
close enough to the point (`Json.exists_writesPoint`), and a whole part that is no greater than an
integer literal may be. What is read (`Document.ofSource_point`) is therefore the float that was
printed (`Datum.ofSource_toJson_float`).
-/

namespace Manifest

open Numeral (IsRun valueOf maxDigits)

namespace Json

open Binary (convert_shortDouble convert_ofDecimal_bounds)

variable {rank : Nat}

/-- The double that stands for a single is written with a point and no exponent, if the single is
zero, or at least a ten thousandth and less than 2^31. -/
theorem exists_writesPoint (le : rank ≤ Format.single.infinity)
    (least : rank = 0 ∨ 0x38d1b717 < rank) (below : rank < 0x4f000000) :
    ∃ d : Decimal, writeReal (Binary.shortDouble (.signed false rank le)) =
        Layout.plain.writeDecimal d ∧
      (Binary.ofDecimal false d : Double).convert .single = .signed false rank le ∧
      WritesPoint (Layout.plain.writeDecimal d) d := by
  have rounded := convert_shortDouble (.signed false rank le)
  obtain rfl | other := Nat.eq_zero_or_pos rank
  · have zero : Binary.shortDouble (.signed false 0 le) = .zero false := by
      have rank_zero :
          Format.double.nearestRank (Format.single.units 0) Format.single.unitsPerOne = 0 := by
        decide +kernel
      rw [Binary.shortDouble, if_pos (.inr rfl), Binary.convert, if_neg (by decide)]
      simp only [Binary.ofRatio, rank_zero, Binary.zero]
    have written : WritesPoint (Layout.plain.writeDecimal ⟨0, 0⟩) ⟨0, 0⟩ :=
      (writesPoint_or_writesReal ⟨0, 0⟩).resolve_right fun far ↦ far.1 rfl
    rw [zero] at rounded ⊢
    refine ⟨⟨0, 0⟩, ?_, rounded, written⟩
    rfl
  · have least : 0x38d1b717 < rank := least.resolve_left other.ne'
    have finite : rank ≠ Format.single.infinity := (below.trans (by decide)).ne
    obtain ⟨wide, wide_le, wideFinite, double⟩ := Binary.exists_shortDouble_eq false le finite
    obtain ⟨d, text, nearest⟩ := exists_text_eq false wide_le wideFinite
    rw [double, ← nearest] at rounded
    obtain ⟨same, same_le, both, great, small⟩ := convert_ofDecimal_bounds d
    rw [both false] at rounded
    cases rounded
    refine ⟨d, ?_, both false, ?_⟩
    · rw [double, writeReal, if_neg wideFinite, text]
      rfl
    · apply (writesPoint_or_writesReal d).resolve_right
      rintro ⟨nonzero, below' | beyond, -⟩
      · have few : d.ratio.1 * 10 ^ 4 < d.ratio.2 := Decimal.ratio_lt (by push_cast; omega)
        have := small few.le
        omega
      · have many : 10 ^ 16 * d.ratio.2 ≤ d.ratio.1 :=
          Decimal.le_ratio nonzero (by push_cast; omega)
        have := great (by omega)
        omega

end Json

namespace Datum

open Document (maxInteger)

variable {rank : Nat}

private theorem valueOf_lt {whole fraction : List Char} {le : rank ≤ Format.single.infinity}
    (below : rank < 0x4f000000) (rounded : (Binary.ofDecimal false
      ⟨valueOf (whole ++ fraction), -(fraction.length : Int)⟩ : Double).convert .single =
        .signed false rank le) : valueOf whole < 2 ^ 31 := by
  obtain ⟨other, other_le, both, great, -⟩ := Binary.convert_ofDecimal_bounds
    ⟨valueOf (whole ++ fraction), -(fraction.length : Int)⟩
  rw [both false] at rounded
  cases rounded
  rw [Decimal.ratio_fraction] at great
  by_contra beyond
  have reaches : 2 ^ 31 * 10 ^ fraction.length ≤ valueOf (whole ++ fraction) :=
    calc 2 ^ 31 * 10 ^ fraction.length ≤ valueOf whole * 10 ^ fraction.length :=
          Nat.mul_le_mul_right _ (Nat.not_lt.mp beyond)
      _ ≤ valueOf (whole ++ fraction) := by
        rw [valueOf, valueOf, Numeral.valueFrom_append]
        exact Numeral.le_valueFrom _ fraction
  exact absurd (great reaches) (Nat.not_le.mpr below)

/-- A float that is zero, or at least a ten thousandth and less than 2^31, is printed as a literal,
and the literal is read as the same float where a name is bound to it. -/
theorem ofSource_toJson_float (le : rank ≤ Format.single.infinity)
    (range : rank = 0 ∨ Format.single.unitsPerOne ≤ Format.single.units rank * 10 ^ 4 ∧
      Format.single.units rank < 2 ^ 31 * Format.single.unitsPerOne) :
    ∃ whole fraction : List Char,
      IsRun whole ∧ IsRun fraction ∧ (valueOf whole : Int) ≤ maxInteger ∧
      let printed := String.ofList (whole ++ '.' :: fraction)
      (∀ indent, toJson indent (.value (.float (.signed false rank le))) =
        if Json.Spacing.admits indent then .ok printed else .error .indentation) ∧
      Document.ofSource ("x = " ++ printed) =
        .ok (.object [.record "x" (.float (.signed false rank le))]) := by
  have least : rank = 0 ∨ 0x38d1b717 < rank := by
    apply range.imp_right
    rintro ⟨least, -⟩
    have tiny : Format.single.units 0x38d1b717 * 10 ^ 4 < Format.single.unitsPerOne := by
      decide +kernel
    exact (Format.units_strictMono .single).lt_iff_lt.mp
      (Nat.lt_of_mul_lt_mul_right (tiny.trans_le least))
  have below : rank < 0x4f000000 := by
    obtain rfl | ⟨-, below⟩ := range
    · decide
    · rw [← Binary.units_greatest.2] at below
      exact (Format.units_strictMono .single).lt_iff_lt.mp below
  obtain ⟨d, text, nearest, whole, fraction, written, run, leading, after, same⟩ :=
    Json.exists_writesPoint le least below
  have value : (Binary.ofDecimal false ⟨valueOf (whole ++ fraction), -(fraction.length : Int)⟩ :
      Double).convert .single = .signed false rank le := (congrArg _ (same false)).trans nearest
  have small := valueOf_lt below value
  have bounded : (valueOf whole : Int) ≤ maxInteger := by
    rw [maxInteger]
    omega
  have short : whole.length ≤ 10 := Numeral.length_le run leading (by decide) (by omega)
  refine ⟨whole, fraction, run, after, bounded, fun indent ↦ ?_, ?_⟩
  · have projected : (Value.float (.signed false rank le)).project =
        .ok (.real (Binary.shortDouble (.signed false rank le))) := rfl
    rw [← written, ← text]
    exact toJson_of_project projected indent
  · rw [Document.ofSource_point run (short.trans (by decide)) bounded after, value]

private def greatest : Single := .signed false 0x4effffff (by decide)

/-- The greatest float below 2^31 is printed as a smaller number, and read as itself. -/
theorem ofSource_toJson_greatest :
    toJson none (.value (.float greatest)) = .ok "2147483500.0" ∧
      Document.ofSource "x = 2147483500.0" = .ok (.object [.record "x" (.float greatest)]) := by
  have range : Format.single.unitsPerOne ≤ Format.single.units 0x4effffff * 10 ^ 4 ∧
      Format.single.units 0x4effffff < 2 ^ 31 * Format.single.unitsPerOne := by decide +kernel
  have text : String.ofList (Json.writeReal greatest.shortDouble) = "2147483500.0" := by
    decide +kernel
  obtain ⟨whole, fraction, -, -, -, printed, read⟩ :=
    ofSource_toJson_float (by decide : 0x4effffff ≤ Format.single.infinity) (.inr range)
  have printed := (printed none).trans (if_pos rfl)
  have same := (Except.ok.inj printed).symm.trans text
  rw [same] at printed read
  exact ⟨printed, read⟩

end Datum
end Manifest
