import Mathlib.Data.List.Find
import Manifest.Number.Notation
import Manifest.Proofs.Number.Grid
import Manifest.Proofs.Number.Narrowing
import Manifest.Proofs.Number.Shortest

/-!
# Nine digits suffice

The decimal of nine digits that is nearest to a single is closer to it than an eighth of the
distance to its neighbours. The eighths between two singles are doubles (`Binary.exists_eighth`),
so that rounding to a double does not bring the decimal further away, and rounding that to a single
gives the single back (`Binary.convert_nearest_nine`).

A single stands for the first of nine candidates that is rounded to an equal number, or for itself
if there were none (`Binary.shortDouble_eq_getD`). There is always one
(`Binary.firstCandidate?_eq_some`).
-/

namespace Manifest.Binary

open Format

variable {num den rank : Nat}

/-! ### Rounding twice -/

-- What is up to an eighth of the way from a single to the next is not rounded above it.
private theorem narrow_le (pos : 0 < den)
    (near : 8 * (num * single.unitsPerOne) ≤
      (7 * single.units rank + single.units (rank + 1)) * den) :
    narrowRank num den ≤ rank := by
  obtain ⟨wide, eighth⟩ := exists_eighth rank (show 7 + 1 = 8 from rfl)
  rw [Nat.one_mul] at eighth
  have rounded : double.nearestRank num den ≤ wide := by
    apply nearestRank_le pos
    apply Nat.le_of_mul_le_mul_left _ (unitsPerOne_pos .single)
    linarith [Nat.mul_le_mul_right double.unitsPerOne near, congrArg (· * den) eighth]
  have most := (units_strictMono .double).monotone rounded
  have less := units_strictMono .single (Nat.lt_succ_self rank)
  apply nearestRank_le_of_lt (unitsPerOne_pos _)
  linarith [Nat.mul_lt_mul_of_pos_right less (unitsPerOne_pos .double),
    Nat.mul_le_mul_right single.unitsPerOne most]

private theorem lt_narrow (pos : 0 < den) (finite : rank < single.infinity)
    (near : (single.units rank + 7 * single.units (rank + 1)) * den ≤
      8 * (num * single.unitsPerOne)) :
    rank < narrowRank num den := by
  obtain ⟨wide, eighth⟩ := exists_eighth rank (show 1 + 7 = 8 from rfl)
  rw [Nat.one_mul] at eighth
  have less := units_strictMono .single (Nat.lt_succ_self rank)
  have reach : wide ≤ double.infinity := by
    apply (units_strictMono .double).le_iff_le.mp
    apply Nat.le_of_mul_le_mul_right _ (unitsPerOne_pos .single)
    have last := (units_strictMono .single).monotone (Nat.succ_le_of_lt finite)
    linarith [units_infinity_le, Nat.mul_le_mul_right double.unitsPerOne last,
      Nat.mul_le_mul_right double.unitsPerOne less.le]
  have rounded : wide ≤ double.nearestRank num den := by
    apply le_nearestRank pos reach
    apply Nat.le_of_mul_le_mul_left _ (unitsPerOne_pos .single)
    linarith [Nat.mul_le_mul_right double.unitsPerOne near, congrArg (· * den) eighth]
  have least := (units_strictMono .double).monotone rounded
  apply lt_nearestRank_of_lt (unitsPerOne_pos _) finite
  linarith [Nat.mul_lt_mul_of_pos_right less (unitsPerOne_pos .double),
    Nat.mul_le_mul_right single.unitsPerOne least]

private theorem convert_ofDecimal_near {d : Decimal} (rank_pos : 0 < rank)
    (finite : rank < single.infinity)
    (above : 2 * 10 ^ 8 * (d.ratio.1 * single.unitsPerOne) ≤
      (2 * 10 ^ 8 + 1) * (single.units rank * d.ratio.2))
    (below : 2 * 10 ^ 8 * (single.units rank * d.ratio.2) ≤
      2 * 10 ^ 8 * (d.ratio.1 * single.unitsPerOne) + single.units rank * d.ratio.2)
    (negative : Bool) :
    (ofDecimal negative d : Double).convert .single = .signed negative rank finite.le := by
  have pos := d.ratio_pos
  -- Half a unit of the ninth digit is less than an eighth of the distance to a neighbour.
  have high : narrowRank d.ratio.1 d.ratio.2 ≤ rank := by
    apply narrow_le pos
    have gap := Nat.mul_le_mul_right d.ratio.2 (single.units_gap rank)
    have bits : 2 ^ single.fractionBits = 2 ^ 23 := rfl
    rw [bits] at gap
    linarith
  have low : rank ≤ narrowRank d.ratio.1 d.ratio.2 := by
    obtain ⟨before, rfl⟩ := Nat.exists_eq_succ_of_ne_zero rank_pos.ne'
    apply lt_narrow pos (Nat.lt_of_succ_lt finite)
    have gap := Nat.mul_le_mul_right d.ratio.2 (single.units_gap before)
    have bits : 2 ^ single.fractionBits = 2 ^ 23 := rfl
    rw [bits] at gap
    rw [Nat.succ_eq_add_one] at above below
    linarith
  rw [convert_ofDecimal_eq]
  simp only [Nat.le_antisymm high low]

/-- The nearest decimal of nine digits to a finite positive single is rounded to it. -/
theorem convert_nearest_nine (rank_pos : 0 < rank) (finite : rank < single.infinity)
    (negative : Bool) :
    (ofDecimal negative (Decimal.nearest (single.units rank) single.unitsPerOne 9) :
      Double).convert .single = .signed negative rank finite.le := by
  have units : 0 < single.units rank :=
    lt_of_le_of_lt (Nat.zero_le _) ((units_strictMono .single) rank_pos)
  obtain ⟨above, below⟩ := Decimal.nearest_near units (unitsPerOne_pos .single) 8
  exact convert_ofDecimal_near rank_pos finite above below negative

/-! ### Candidates -/

/-- The double nearest to the decimal of some digits that is nearest to a single. What is not
finite stands for itself. -/
def candidate (digits : Nat) : Single → Double
  | nan => nan
  | signed negative rank _ =>
    if rank = single.infinity then infinite negative
    else ofDecimal negative (Decimal.nearest (single.units rank) single.unitsPerOne digits)

/-- The first of the candidates of one to nine digits that is rounded to a number equal to the
single. -/
def firstCandidate? (x : Single) : Option Double :=
  ((List.range 9).map fun i ↦ x.candidate (i + 1)).find? fun wide ↦ (wide.convert .single).numEq x

private theorem candidate_eq_convert {le : rank ≤ single.infinity} (negative : Bool)
    (special : rank = single.infinity ∨ rank = 0) (digits : Nat) :
    candidate digits (.signed negative rank le) = (signed negative rank le).convert .double := by
  rw [candidate, convert]
  rcases special with rfl | rfl
  · rw [if_pos rfl, if_pos rfl]
  · have nearest := Decimal.coefficient_nearest_zero (unitsPerOne_pos .single) digits
    have units_zero : single.units 0 = 0 := by decide +kernel
    have zero : double.nearestRank 0 single.unitsPerOne = 0 := by decide +kernel
    rw [if_neg (by decide), if_neg (by decide), units_zero, ofDecimal, if_pos (.inl nearest)]
    simp only [ofRatio, zero, Binary.zero]

private theorem firstCandidate?_special {le : rank ≤ single.infinity} (negative : Bool)
    (special : rank = single.infinity ∨ rank = 0) :
    firstCandidate? (.signed negative rank le) =
      some ((signed negative rank le).convert .double) := by
  have equal : ((((signed negative rank le : Single).convert .double).convert .single).numEq
      (.signed negative rank le)) = true := by
    rw [convert_convert]
    exact numEq_self nofun
  rw [firstCandidate?, List.range_succ_eq_map, List.map_cons,
    candidate_eq_convert negative special]
  exact List.find?_cons_of_pos equal

private theorem exists_shortDecimal (rank_pos : 0 < rank) (finite : rank < single.infinity) :
    ∃ d, shortDecimal? rank = some d := by
  rw [← Option.isSome_iff_exists, shortDecimal?, List.find?_isSome]
  refine ⟨Decimal.nearest (single.units rank) single.unitsPerOne 9,
    List.mem_map.mpr ⟨8, by decide, rfl⟩, ?_⟩
  rw [convert_nearest_nine rank_pos finite]
  exact beq_self_eq_true rank

private theorem firstCandidate?_finite {le : rank ≤ single.infinity} (negative : Bool)
    (finite : rank ≠ single.infinity) :
    firstCandidate? (.signed negative rank le) =
      (shortDecimal? rank).map (ofDecimal negative) := by
  have candidates : (List.range 9).map (fun i ↦ candidate (i + 1) (.signed negative rank le)) =
      ((List.range 9).map fun i ↦ Decimal.nearest (single.units rank) single.unitsPerOne
        (i + 1)).map (ofDecimal negative) := by
    rw [List.map_map]
    apply List.map_congr_left
    intro i _
    exact if_neg finite
  rw [firstCandidate?, candidates, List.find?_map, shortDecimal?]
  congr 1
  apply List.find?_congr
  intro d _
  obtain ⟨other, other_le, rounded, -⟩ := convert_ofDecimal_bounds d
  rw [Function.comp_apply, rounded, rounded]
  show (other == rank && (negative == negative || other == 0)) = (other == rank)
  rw [beq_self_eq_true, Bool.true_or, Bool.and_true]

/-- A single stands for the first of its candidates, or for itself if there were none. -/
theorem shortDouble_eq_getD (x : Single) :
    x.shortDouble = x.firstCandidate?.getD (x.convert .double) := by
  cases x with
  | nan =>
    have missing : firstCandidate? nan = none := by
      apply List.find?_eq_none.mpr
      intro wide _
      rw [numEq_comm, numEq_nan]
      exact Bool.false_ne_true
    rw [missing]
    rfl
  | signed negative rank le =>
    by_cases special : rank = single.infinity ∨ rank = 0
    · rw [firstCandidate?_special negative special, shortDouble, if_pos special]
      rfl
    · rw [firstCandidate?_finite negative (not_or.mp special).1, shortDouble, if_neg special]

private theorem exists_firstCandidate {x : Single} (number : x ≠ nan) :
    ∃ wide, x.firstCandidate? = some wide := by
  cases x with
  | nan => exact absurd rfl number
  | signed negative rank le =>
    by_cases special : rank = single.infinity ∨ rank = 0
    · exact ⟨_, firstCandidate?_special negative special⟩
    · obtain ⟨other, zero⟩ := not_or.mp special
      obtain ⟨d, short⟩ :=
        exists_shortDecimal (Nat.pos_of_ne_zero zero) (Nat.lt_of_le_of_ne le other)
      rw [firstCandidate?_finite negative other, short]
      exact ⟨ofDecimal negative d, rfl⟩

private theorem exists_candidate_eq {x : Single} (finite : x.isFinite = true) (digits : Nat) :
    ∃ (negative : Bool) (d : Decimal), d.coefficient < 10 ^ (digits + 1) ∧
      x.candidate (digits + 1) = ofDecimal negative d := by
  cases x with
  | nan => cases finite
  | signed negative rank le =>
    have bound :=
      Decimal.coefficient_nearest_le (unitsPerOne_pos .single) (single.units rank) digits
    rw [candidate, if_neg (bne_iff_ne.mp finite)]
    generalize Decimal.nearest (single.units rank) single.unitsPerOne (digits + 1) = d at bound
    rcases Nat.lt_or_eq_of_le bound with short | carried
    · exact ⟨negative, d, short, rfl⟩
    · -- The digits were rounded up to a one with zeros after it.
      obtain ⟨coefficient, exponent⟩ := d
      obtain rfl : coefficient = 1 * 10 ^ (digits + 1) := carried.trans (Nat.one_mul _).symm
      refine ⟨negative, ⟨1, exponent + (digits + 1 : Nat)⟩, ?_, ?_⟩
      · exact Nat.one_lt_pow (Nat.succ_ne_zero digits) (by decide)
      · exact ofDecimal_mul_pow reach_double negative 1 (digits + 1) exponent

/-- Every number has a candidate of at most nine digits that is rounded to an equal number, and
stands for the first of them; this is rounded to the number itself. That of a finite number is the
double nearest to a decimal of at most nine digits. -/
theorem firstCandidate?_eq_some {x : Single} (number : x ≠ nan) :
    x.firstCandidate? = some x.shortDouble ∧ x.shortDouble.convert .single = x ∧
      (x.isFinite = true → ∃ (negative : Bool) (d : Decimal), d.coefficient < 10 ^ 9 ∧
        x.shortDouble = ofDecimal negative d) := by
  obtain ⟨wide, first⟩ := exists_firstCandidate number
  have stands : x.shortDouble = wide := by rw [shortDouble_eq_getD, first, Option.getD_some]
  refine ⟨by rw [first, stands], convert_shortDouble x, ?_⟩
  intro finite
  obtain ⟨i, inside, same⟩ := List.mem_map.mp (List.mem_of_find?_eq_some first)
  obtain ⟨negative, d, short, nearest⟩ := exists_candidate_eq finite i
  have digits : (10 : Nat) ^ (i + 1) ≤ 10 ^ 9 :=
    Nat.pow_le_pow_right (by decide) (List.mem_range.mp inside)
  exact ⟨negative, d, lt_of_lt_of_le short digits, by rw [stands, ← same, nearest]⟩

private def largest : Single := .signed false 0x7f7fffff (by decide)

/-- The largest finite single stands for a decimal of eight digits. That decimal is larger than it,
but is not rounded to infinity. -/
theorem firstCandidate?_largest :
    largest ≠ nan ∧ largest.firstCandidate? = some (ofDecimal false ⟨34028235, 31⟩) ∧
      (ofDecimal false ⟨34028235, 31⟩ : Double).convert .single = largest := by
  have number : largest ≠ nan := nofun
  have short : shortDecimal? 0x7f7fffff = some ⟨34028235, 31⟩ := by decide +kernel
  have stands : largest.shortDouble = ofDecimal false ⟨34028235, 31⟩ := by
    rw [largest, shortDouble, if_neg (by decide), short]
    rfl
  obtain ⟨first, rounded, -⟩ := firstCandidate?_eq_some number
  rw [stands] at first rounded
  exact ⟨number, first, rounded⟩

end Manifest.Binary
