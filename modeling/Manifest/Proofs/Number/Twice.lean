import Manifest.Proofs.Number.Fraction
import Manifest.Proofs.Number.Nearest
import Manifest.Proofs.Number.Shortest

/-!
# Rounding twice

A number with a point is rounded to a double, and the double to a single (`Binary.narrowRank`).
Both roundings are to the nearest, but the single need not be the one nearest to the number. The
middle between two singles is a double, and a number that is near enough to it is rounded to it;
which of the two singles the number is nearer to is then lost (`Binary.Hides`). That is the only
way in which the single can be another than the nearest one (`Binary.isNearest_narrowRank_iff`).
-/

namespace Manifest.Binary

open Format

variable {num den rank other : Nat}

/-- The rank stays when both parts of the quotient are multiplied. -/
theorem narrowRank_mul {k : Nat} (pos : 0 < k) (num den : Nat) :
    narrowRank (k * num) (k * den) = narrowRank num den := by
  rw [narrowRank, nearestRank_mul _ pos, narrowRank]

/-- The middle between a finite single and the next is a double. -/
theorem exists_middle (finite : rank < single.infinity) :
    ∃ wide, wide < double.infinity ∧ 2 * (double.units wide * single.unitsPerOne) =
      (single.units rank + single.units (rank + 1)) * double.unitsPerOne := by
  obtain ⟨wide, eighth⟩ := exists_eighth rank (show 4 + 4 = 8 from rfl)
  have middle : 2 * (double.units wide * single.unitsPerOne) =
      (single.units rank + single.units (rank + 1)) * double.unitsPerOne := by
    linarith
  refine ⟨wide, ?_, middle⟩
  have less := (units_strictMono .single) finite
  have last := (units_strictMono .single).monotone (Nat.succ_le_of_lt finite)
  apply (units_strictMono .double).lt_iff_lt.mp
  apply Nat.lt_of_mul_lt_mul_right (a := single.unitsPerOne)
  linarith [units_infinity_le, Nat.mul_le_mul_right double.unitsPerOne last,
    Nat.mul_lt_mul_of_pos_right less (unitsPerOne_pos .double)]

/-- A double is the middle between the magnitude of a rank and that of another next to it, and the
other is nearer to the quotient. -/
structure Hides (num den wide rank other : Nat) : Prop where
  adjacent : other = rank + 1 ∨ rank = other + 1
  middle : 2 * (double.units wide * single.unitsPerOne) =
    (single.units rank + single.units other) * double.unitsPerOne
  nearer : single.distance num den other < single.distance num den rank

private theorem hides_above (pos : 0 < den)
    (less : narrowRank num den < single.nearestRank num den) :
    Hides num den (double.nearestRank num den) (narrowRank num den) (narrowRank num den + 1) := by
  have finite : narrowRank num den < single.infinity := lt_of_lt_of_le less (Nat.min_le_right _ _)
  obtain ⟨wide, below, middle⟩ := exists_middle finite
  have twice := (nearestRank_le_iff (by decide) (unitsPerOne_pos .double) finite).mp
    (Nat.le_refl (narrowRank num den))
  have once := (nearestRank_le_iff (by decide) pos finite).not.mp (Nat.not_le.mpr less)
  generalize narrowRank num den = rank at *
  have reach : wide ≤ double.nearestRank num den := by
    apply le_nearestRank pos below.le
    apply Nat.le_of_mul_le_mul_left _ (unitsPerOne_pos .single)
    have above : (single.units rank + single.units (rank + 1)) * den ≤
        2 * (num * single.unitsPerOne) := by omega
    linarith [Nat.mul_le_mul_right double.unitsPerOne above, congrArg (· * den) middle]
  have units := Nat.mul_le_mul_right single.unitsPerOne ((units_strictMono .double).monotone reach)
  refine ⟨.inl rfl, by omega, ?_⟩
  have step := Nat.mul_lt_mul_of_pos_right (single.units_strictMono (Nat.lt_succ_self rank)) pos
  rw [Nat.add_mul] at once
  rw [Nat.succ_eq_add_one] at step
  unfold distance Nat.dist
  omega

private theorem hides_below (pos : 0 < den) (less : single.nearestRank num den ≤ other)
    (same : narrowRank num den = other + 1) :
    Hides num den (double.nearestRank num den) (other + 1) other := by
  have finite : other < single.infinity := by
    have := narrowRank_le num den
    omega
  obtain ⟨wide, below, middle⟩ := exists_middle finite
  have twice := (nearestRank_le_iff (by decide) (unitsPerOne_pos .double) finite).not.mp
    (Nat.not_le.mpr (show other < narrowRank num den by omega))
  have once := (nearestRank_le_iff (by decide) pos finite).mp less
  have reach : double.nearestRank num den ≤ wide := by
    apply nearestRank_le pos
    apply Nat.le_of_mul_le_mul_left _ (unitsPerOne_pos .single)
    have beneath : 2 * (num * single.unitsPerOne) ≤
        (single.units other + single.units (other + 1)) * den := by omega
    linarith [Nat.mul_le_mul_right double.unitsPerOne beneath, congrArg (· * den) middle]
  have units := Nat.mul_le_mul_right single.unitsPerOne ((units_strictMono .double).monotone reach)
  refine ⟨.inr rfl, by rw [Nat.add_comm (single.units (other + 1))]; omega, ?_⟩
  have step := Nat.mul_lt_mul_of_pos_right (single.units_strictMono (Nat.lt_succ_self other)) pos
  rw [Nat.add_mul] at once
  rw [Nat.succ_eq_add_one] at step
  unfold distance Nat.dist
  omega

/-- The single that a quotient is rounded to by way of the doubles is the nearest one, unless the
double hides that another is nearer. -/
theorem isNearest_narrowRank_iff (pos : 0 < den)
    (finite : single.nearestRank num den < single.infinity) :
    single.IsNearest num den (narrowRank num den) ↔
      ¬ ∃ other, Hides num den (double.nearestRank num den) (narrowRank num den) other := by
  constructor
  · rintro nearest ⟨other, hides⟩
    have different : other ≠ narrowRank num den := by
      have := hides.adjacent
      omega
    have := nearest other different
    have := hides.nearer
    omega
  · intro unhidden
    obtain less | same | greater :=
      Nat.lt_trichotomy (narrowRank num den) (single.nearestRank num den)
    · exact absurd ⟨_, hides_above pos less⟩ unhidden
    · rw [same]
      exact isNearest_nearestRank (by decide) pos finite
    · obtain ⟨other, next⟩ := Nat.exists_eq_succ_of_ne_zero (Nat.ne_zero_of_lt greater)
      refine absurd ⟨other, ?_⟩ unhidden
      rw [next] at greater ⊢
      exact hides_below pos (Nat.le_of_lt_succ greater) next

end Manifest.Binary
