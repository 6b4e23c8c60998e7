import Mathlib.Data.Nat.Dist
import Manifest.Proofs.Number.Rounding

/-!
# Nearest magnitudes

A magnitude is nearest to a quotient when every other is further from it, or as far and this one
has the even rank (`Format.IsNearest`). There is one such magnitude at most
(`Format.IsNearest.unique`), and it is the one that rounding finds, unless that is infinity
(`Format.isNearest_nearestRank`).
-/

namespace Manifest.Format

variable {f : Format} {num den rank other : Nat}

/-- How far a magnitude is from a quotient, in least units divided by the denominator. -/
def distance (f : Format) (num den rank : Nat) : Nat :=
  Nat.dist (f.units rank * den) (num * f.unitsPerOne)

/-- The magnitude of the rank is the nearest to a quotient, and of two that are equally near the
one of even rank. -/
def IsNearest (f : Format) (num den rank : Nat) : Prop :=
  ∀ other, other ≠ rank → f.distance num den rank < f.distance num den other ∨
    f.distance num den rank = f.distance num den other ∧ rank % 2 = 0

private theorem distance_lt_above (pos : 0 < den) (greater : rank < other)
    (below : 2 * (num * f.unitsPerOne) ≤ (f.units rank + f.units (rank + 1)) * den) :
    f.distance num den rank < f.distance num den other ∨
      f.distance num den rank = f.distance num den other ∧
        2 * (num * f.unitsPerOne) = (f.units rank + f.units (rank + 1)) * den := by
  have step := Nat.mul_lt_mul_of_pos_right (f.units_strictMono (Nat.lt_succ_self rank)) pos
  have far := Nat.mul_le_mul_right den (f.units_strictMono.monotone (Nat.succ_le_of_lt greater))
  rw [Nat.add_mul] at below ⊢
  rw [Nat.succ_eq_add_one] at step far
  unfold distance Nat.dist
  omega

private theorem distance_lt_below (pos : 0 < den) (less : other ≤ rank)
    (above : (f.units rank + f.units (rank + 1)) * den ≤ 2 * (num * f.unitsPerOne)) :
    f.distance num den (rank + 1) < f.distance num den other ∨
      f.distance num den (rank + 1) = f.distance num den other ∧
        2 * (num * f.unitsPerOne) = (f.units rank + f.units (rank + 1)) * den := by
  have step := Nat.mul_lt_mul_of_pos_right (f.units_strictMono (Nat.lt_succ_self rank)) pos
  have far := Nat.mul_le_mul_right den (f.units_strictMono.monotone less)
  rw [Nat.add_mul] at above ⊢
  rw [Nat.succ_eq_add_one] at step
  unfold distance Nat.dist
  omega

/-- What a quotient is rounded to is the nearest magnitude, unless it is rounded to infinity. -/
theorem isNearest_nearestRank (bits : 0 < f.fractionBits) (pos : 0 < den)
    (finite : f.nearestRank num den < f.infinity) :
    f.IsNearest num den (f.nearestRank num den) := by
  intro other different
  have upper := (nearestRank_le_iff bits pos finite).mp (Nat.le_refl _)
  generalize nearest : f.nearestRank num den = rank at *
  obtain less | greater := Nat.lt_or_gt_of_ne different
  · obtain ⟨before, rfl⟩ := Nat.exists_eq_succ_of_ne_zero (Nat.ne_zero_of_lt less)
    have rounded : ¬ f.nearestRank num den ≤ before := by omega
    have lower := (nearestRank_le_iff bits pos (Nat.lt_of_succ_lt finite)).not.mp rounded
    have above : (f.units before + f.units (before + 1)) * den ≤ 2 * (num * f.unitsPerOne) := by
      omega
    have near := f.distance_lt_below pos (Nat.le_of_lt_succ less) above
    rw [Nat.succ_eq_add_one] at *
    omega
  · have below : 2 * (num * f.unitsPerOne) ≤ (f.units rank + f.units (rank + 1)) * den := by omega
    have near := f.distance_lt_above pos greater below
    omega

/-- No two magnitudes are nearest to a quotient. -/
theorem IsNearest.unique (pos : 0 < den) (nearest : f.IsNearest num den rank)
    (nearest' : f.IsNearest num den other) : rank = other := by
  wlog less : rank ≤ other generalizing rank other
  · exact (this nearest' nearest (Nat.le_of_not_le less)).symm
  by_contra different
  have equal := nearest other (Ne.symm different)
  have equal' := nearest' rank different
  have step := Nat.mul_lt_mul_of_pos_right (f.units_strictMono (Nat.lt_succ_self rank)) pos
  -- The one after the first is no further than the other, so it is the other, and one rank is odd.
  obtain last | between :=
    Nat.eq_or_lt_of_le (Nat.succ_le_of_lt (Nat.lt_of_le_of_ne less different))
  · omega
  · have near := nearest (rank + 1) (Nat.succ_ne_self rank)
    have far := Nat.mul_lt_mul_of_pos_right (f.units_strictMono between) pos
    rw [Nat.succ_eq_add_one] at step far
    unfold distance Nat.dist at *
    omega

/-- What is nearest to a quotient is what it is rounded to, unless that is infinity. -/
theorem IsNearest.eq_nearestRank (bits : 0 < f.fractionBits) (pos : 0 < den)
    (finite : f.nearestRank num den < f.infinity) (nearest : f.IsNearest num den rank) :
    rank = f.nearestRank num den :=
  nearest.unique pos (isNearest_nearestRank bits pos finite)

end Manifest.Format
