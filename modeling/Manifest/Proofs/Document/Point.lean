import Manifest.Proofs.Document.Printing
import Manifest.Proofs.Number.Twice

/-!
# Numbers with a point

Two runs of digits with a point between them are read as the number that they denote, rounded to a
double and then to a single (`Document.ofSource_point`). The single is the one nearest to the
double, and the double the one nearest to the number. The single is the one nearest to the number
too, unless the double is the middle between two singles and the number is nearer to the other of
them (`Document.ofSource_point_nearest`).
-/

namespace Manifest.Document

open Numeral (IsRun valueOf maxDigits)
open Format (single double)

private def pointWords (whole fraction : List Char) : List Word :=
  [⟨.identifier, "x"⟩, ⟨.assign, "="⟩, ⟨.integer, String.ofList whole⟩, ⟨.point, "."⟩,
    ⟨.integer, String.ofList fraction⟩]

variable {whole fraction : List Char}

private theorem lexical_digits {digits : List Char} (run : IsRun digits) :
    Word.IsLexical ⟨.integer, String.ofList digits⟩ := by
  rwa [Word.IsLexical, String.toList_ofList]

private theorem lexical_pointWords (run : IsRun whole) (after : IsRun fraction) :
    ∀ w ∈ pointWords whole fraction, w.IsLexical := by
  simp only [pointWords, List.forall_mem_cons, List.not_mem_nil, false_implies,
    implies_true, and_true]
  exact ⟨(Token.isName_iff "x").mp (by decide), Token.isLexical_mark rfl rfl, lexical_digits run,
    Token.isLexical_mark rfl rfl, lexical_digits after⟩

private theorem spells_pointWords (run : IsRun whole) (after : IsRun fraction) :
    Token.Spells 0 ("x = " ++ String.ofList (whole ++ '.' :: fraction)).toList
      (pointWords whole fraction) := by
  have lexical := lexical_pointWords run after
  simp only [pointWords, List.forall_mem_cons] at lexical
  obtain ⟨name, assign, -, point, -⟩ := lexical
  have space : ∀ c ∈ [' '], Text.isLayout c = true := List.forall_mem_singleton.mpr (by decide)
  have text : ("x = " ++ String.ofList (whole ++ '.' :: fraction)).toList =
      "x".toList ++ ([' '] ++ ("=".toList ++ ([' '] ++ ((String.ofList whole).toList ++
        (".".toList ++ ((String.ofList fraction).toList ++ [])))))) := by simp
  rw [text]
  refine Token.Spells.lexeme (Token.Spells.layout (Token.Spells.lexeme (Token.Spells.layout
    (Token.Spells.lexeme (Token.Spells.lexeme (Token.Spells.lexeme (Token.spells_nil _)
      (lexical_digits after) ?_) point ?_) (lexical_digits run) ?_) space) assign ?_) space)
    name ?_
  all_goals simp [Token.Kind.goesOn]
  all_goals decide

private theorem reads_pointWords (run : IsRun whole) (short : whole.length ≤ maxDigits)
    (small : (valueOf whole : Int) ≤ maxInteger) (after : IsRun fraction) {ts : List Token}
    (said : ts.map Token.word = pointWords whole fraction) :
    Reads 0 (.entries [.record "x" (.float
      ((Binary.ofDecimal false ⟨valueOf (whole ++ fraction), -(fraction.length : Int)⟩ :
        Double).convert .single))]) ts [] := by
  obtain ⟨id, _, rfl, first, said⟩ := List.map_eq_cons_iff.mp said
  obtain ⟨mark, _, rfl, second, said⟩ := List.map_eq_cons_iff.mp said
  obtain ⟨digits, _, rfl, third, said⟩ := List.map_eq_cons_iff.mp said
  obtain ⟨point, _, rfl, fourth, said⟩ := List.map_eq_cons_iff.mp said
  obtain ⟨others, rfl, fifth⟩ := List.map_eq_singleton_iff.mp said
  obtain ⟨idKind, idLexeme⟩ := Token.word_eq_iff.mp first
  obtain ⟨kind, lexeme⟩ := Token.word_eq_iff.mp third
  obtain ⟨kind', lexeme'⟩ := Token.word_eq_iff.mp fifth
  obtain rfl : digits.lexeme.toList = whole := by rw [lexeme, String.toList_ofList]
  obtain rfl : others.lexeme.toList = fraction := by rw [lexeme', String.toList_ofList]
  have admits : Admits digits := ⟨_, Numeral.readInteger_of_isRun run short, small⟩
  have read : Reads 0 (.entries [.record id.lexeme (.float (realOf digits others))])
      [id, mark, digits, point, others] [] :=
    .record idKind (Token.word_eq_iff.mp second).1
      (.real kind admits (Token.word_eq_iff.mp fourth).1
      kind' (fractionValue_isRun run short after)) .noEntries
  rwa [idLexeme] at read

/-- A binding of two runs of digits with a point between them is read as that of the number that
they denote. -/
theorem ofSource_point (run : IsRun whole) (short : whole.length ≤ maxDigits)
    (small : (valueOf whole : Int) ≤ maxInteger) (after : IsRun fraction) :
    ofSource ("x = " ++ String.ofList (whole ++ '.' :: fraction)) =
      .ok (.object [.record "x" (.float ((Binary.ofDecimal false
        ⟨valueOf (whole ++ fraction), -(fraction.length : Int)⟩ : Double).convert .single))]) :=
  ofSource_of_reads (spells_pointWords run after) (lexical_pointWords run after)
    (reads_pointWords run short small after)

private theorem isRun_zeros_append (zeros : Nat) (run : IsRun whole) :
    IsRun (List.replicate zeros '0' ++ whole) :=
  ⟨by simp [run.nonempty],
    List.forall_mem_append.mpr ⟨Numeral.isAsciiDigit_zeros zeros, run.digits⟩⟩

private theorem isRun_append_zeros (more : Nat) (run : IsRun fraction) :
    IsRun (fraction ++ List.replicate more '0') :=
  ⟨by simp [run.nonempty],
    List.forall_mem_append.mpr ⟨run.digits, Numeral.isAsciiDigit_zeros more⟩⟩

private theorem convert_zeros (zeros more : Nat) (whole fraction : List Char) :
    (Binary.ofDecimal false
      ⟨valueOf (List.replicate zeros '0' ++ whole ++ (fraction ++ List.replicate more '0')),
        -((fraction ++ List.replicate more '0').length : Int)⟩ : Double).convert .single =
      .signed false (Binary.narrowRank (valueOf (whole ++ fraction)) (10 ^ fraction.length))
        (Binary.narrowRank_le _ _) := by
  have value :
      valueOf (List.replicate zeros '0' ++ whole ++ (fraction ++ List.replicate more '0')) =
      10 ^ more * valueOf (whole ++ fraction) := by
    rw [List.append_assoc, Numeral.valueOf_zeros_append, ← List.append_assoc,
      Numeral.valueOf_append_zeros, Nat.mul_comm]
  have length :
      10 ^ (fraction ++ List.replicate more '0').length = 10 ^ more * 10 ^ fraction.length := by
    rw [List.length_append, List.length_replicate, Nat.add_comm, Nat.pow_add]
  rw [Binary.convert_ofDecimal_eq]
  simp only [Decimal.ratio_fraction, value, length,
    Binary.narrowRank_mul (Nat.pow_pos (by decide : 0 < 10))]

private theorem nearestRank_lt (small : (valueOf whole : Int) ≤ maxInteger)
    (after : IsRun fraction) :
    double.nearestRank (valueOf (whole ++ fraction)) (10 ^ fraction.length) < double.infinity ∧
      single.nearestRank (valueOf (whole ++ fraction)) (10 ^ fraction.length) < single.infinity ∧
      Binary.narrowRank (valueOf (whole ++ fraction)) (10 ^ fraction.length) <
        single.infinity := by
  obtain ⟨greatestDouble, greatestSingle⟩ := Binary.units_greatest
  have pos : 0 < 10 ^ fraction.length := Nat.pow_pos (by decide)
  have below : valueOf (whole ++ fraction) ≤ 2 ^ 31 * 10 ^ fraction.length := by
    rw [maxInteger] at small
    calc valueOf (whole ++ fraction) = Numeral.valueFrom (valueOf whole) fraction :=
          Numeral.valueFrom_append 0 whole fraction
      _ ≤ (valueOf whole + 1) * 10 ^ fraction.length := (Numeral.valueFrom_lt after.digits _).le
      _ ≤ 2 ^ 31 * 10 ^ fraction.length := Nat.mul_le_mul_right _ (by omega)
  generalize valueOf (whole ++ fraction) = num at *
  generalize 10 ^ fraction.length = den at *
  have wide : double.nearestRank num den ≤ 0x41e0000000000000 := by
    apply Format.nearestRank_le pos
    rw [greatestDouble]
    linarith [Nat.mul_le_mul_right double.unitsPerOne below]
  have once : single.nearestRank num den ≤ 0x4f000000 := by
    apply Format.nearestRank_le pos
    rw [greatestSingle]
    linarith [Nat.mul_le_mul_right single.unitsPerOne below]
  have twice := Binary.narrowRank_le_greatest pos below
  exact ⟨wide.trans_lt (by decide), once.trans_lt (by decide), twice.trans_lt (by decide)⟩

/-- A literal with a point is read, wherever it stands, as the single nearest to the double nearest
to the number of its digits, of two equally near ones the even one. That is the single nearest to
the number, unless the double hides that another is nearer. Zeros in front of the whole part, up to
the length that is read, and zeros after the fraction change nothing. -/
theorem ofSource_point_nearest (run : IsRun whole) (small : (valueOf whole : Int) ≤ maxInteger)
    (after : IsRun fraction) :
    let num := valueOf whole * 10 ^ fraction.length + valueOf fraction
    let den := 10 ^ fraction.length
    ∃ wide rank le, double.IsNearest num den wide ∧
      single.IsNearest (double.units wide) double.unitsPerOne rank ∧
      (single.IsNearest num den rank ↔ ¬ ∃ other, Binary.Hides num den wide rank other) ∧
      ∀ zeros more, zeros + whole.length ≤ maxDigits →
        let before := List.replicate zeros '0' ++ whole
        let behind := fraction ++ List.replicate more '0'
        (∀ {digits others : Token}, digits.lexeme.toList = before → others.lexeme.toList = behind →
          fractionValue digits others = .ok (.float (.signed false rank le))) ∧
        ofSource ("x = " ++ String.ofList (before ++ '.' :: behind)) =
          .ok (.object [.record "x" (.float (.signed false rank le))]) := by
  obtain ⟨wideFinite, onceFinite, twiceFinite⟩ := nearestRank_lt small after
  have pos : 0 < 10 ^ fraction.length := Nat.pow_pos (by decide)
  rw [← Numeral.valueOf_append]
  refine ⟨double.nearestRank (valueOf (whole ++ fraction)) (10 ^ fraction.length), _,
    Binary.narrowRank_le (valueOf (whole ++ fraction)) (10 ^ fraction.length),
    Format.isNearest_nearestRank (by decide) pos wideFinite,
    Format.isNearest_nearestRank (by decide) (Format.unitsPerOne_pos _) twiceFinite,
    Binary.isNearest_narrowRank_iff pos onceFinite, ?_⟩
  intro zeros more few
  have run' := isRun_zeros_append zeros run
  have after' := isRun_append_zeros more after
  have short' : (List.replicate zeros '0' ++ whole).length ≤ maxDigits := by simpa using few
  have small' : (valueOf (List.replicate zeros '0' ++ whole) : Int) ≤ maxInteger := by
    rwa [Numeral.valueOf_zeros_append]
  constructor
  · intro digits others first second
    rw [← convert_zeros zeros more whole fraction, ← first, ← second]
    exact fractionValue_isRun (first ▸ run') (first ▸ short') (second ▸ after')
  · rw [ofSource_point run' short' small' after', convert_zeros]

/-- The same single is read from 4.2 with and without zeros around the digits, and no other is
nearer. -/
theorem ofSource_point_nearest_padded :
    IsRun ['4'] ∧ (valueOf ['4'] : Int) ≤ maxInteger ∧ IsRun ['2'] ∧
      ∃ le, ofSource "x = 4.2" =
        .ok (.object [.record "x" (.float (.signed false 0x40866666 le))]) ∧
        ofSource "x = 04.20" =
          .ok (.object [.record "x" (.float (.signed false 0x40866666 le))]) := by
  have four : IsRun ['4'] := ⟨List.cons_ne_nil _ _, List.forall_mem_singleton.mpr rfl⟩
  have two : IsRun ['2'] := ⟨List.cons_ne_nil _ _, List.forall_mem_singleton.mpr rfl⟩
  have small : (valueOf ['4'] : Int) ≤ maxInteger := by decide +kernel
  have once : double.nearestRank 42 10 = 0x4010cccccccccccd := by decide +kernel
  have twice :
      single.nearestRank (double.units 0x4010cccccccccccd) double.unitsPerOne = 0x40866666 := by
    decide +kernel
  obtain ⟨wide, rank, le, first, second, -, read⟩ := ofSource_point_nearest four small two
  obtain rfl : wide = 0x4010cccccccccccd := by
    rw [← once]
    exact first.eq_nearestRank (by decide) (by decide) (by rw [once]; decide)
  obtain rfl : rank = 0x40866666 := by
    rw [← twice]
    exact second.eq_nearestRank (by decide) (Format.unitsPerOne_pos _) (by rw [twice]; decide)
  exact ⟨four, small, two, le, (read 0 0 (by decide)).2, (read 1 1 (by decide)).2⟩

/-- The double nearest to 1.0000000596046448 is the middle between one and the next single. The
number is beyond it, so that the next single is the nearest, but one is read. -/
theorem ofSource_point_middle :
    (∃ le, ofSource "x = 1.0000000596046448" =
        .ok (.object [.record "x" (.float (.signed false 0x3f800000 le))])) ∧
      single.IsNearest 10000000596046448 (10 ^ 16) 0x3f800001 ∧
      ¬ single.IsNearest 10000000596046448 (10 ^ 16) 0x3f800000 := by
  have one : IsRun ['1'] := ⟨List.cons_ne_nil _ _, List.forall_mem_singleton.mpr rfl⟩
  have after : IsRun "0000000596046448".toList :=
    ⟨by simp, List.all_eq_true.mp (by decide +kernel)⟩
  have small : (valueOf ['1'] : Int) ≤ maxInteger := by decide +kernel
  have length : "0000000596046448".toList.length = 16 := rfl
  have value : valueOf (['1'] ++ "0000000596046448".toList) = 10000000596046448 := by
    decide +kernel
  have once : single.nearestRank 10000000596046448 (10 ^ 16) = 0x3f800001 := by decide +kernel
  have twice : Binary.narrowRank 10000000596046448 (10 ^ 16) = 0x3f800000 := by decide +kernel
  have nearest : single.IsNearest 10000000596046448 (10 ^ 16) _ :=
    Format.isNearest_nearestRank (by decide) (by decide) (by rw [once]; decide)
  rw [once] at nearest
  refine ⟨⟨by decide, ?_⟩, nearest,
    fun other ↦ absurd (other.unique (by decide) nearest) (by decide)⟩
  have read := ofSource_point one (by decide) small after
  simp only [Binary.convert_ofDecimal_eq, value, length, Decimal.ratio_fraction, twice] at read
  exact read

end Manifest.Document
