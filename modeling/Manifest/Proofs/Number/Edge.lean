import Manifest.Proofs.Number.Twice

/-!
# Where rounding twice changes

A quotient is rounded to a double and then to a single. The quotients that are rounded to a single
at most end at a quotient of their own (`Binary.edge`), half a unit of the doubles beyond the
middle between the single and the next, or before it where the rank is odd
(`Binary.narrowRank_le_iff`). A single that is no power of two lies in the middle between its two
edges (`Binary.edge_add_edge`), and what is rounded to it does so on both sides alike
(`Binary.narrowRank_le_of_reflected`, `Binary.le_narrowRank_of_reflected`).
-/

namespace Manifest.Binary

open Format

variable {num den num' den' rank e m : Nat}

/-- Twice the quotient at which rounding goes over from a positive single to the next, in least
units of the doubles. -/
def edge (rank : Nat) : Nat :=
  let binade := rank / 0x800000 - 1
  let significand := rank - binade * 0x800000
  let bits := significand.log2
  ((2 * significand + 1) * Nat.pow 2 (52 - bits) + 1 - 2 * (rank % 2)) *
    Nat.pow 2 (binade + bits + 873)

private theorem edge_eq (small : m < 2 * 2 ^ 23) (normal : 0 < e → 2 ^ 23 ≤ m) :
    edge (e * 2 ^ 23 + m) =
      ((2 * m + 1) * 2 ^ (52 - m.log2) + 1 - 2 * ((e * 2 ^ 23 + m) % 2)) *
        2 ^ (e + m.log2 + 873) := by
  have binade : (e * 2 ^ 23 + m) / 0x800000 - 1 = e := by omega
  have significand : e * 2 ^ 23 + m - e * 0x800000 = m := by omega
  simp only [edge, binade, significand, Nat.pow_eq]

private theorem significand_ne_zero (positive : 0 < e * 2 ^ 23 + m) (normal : 0 < e → 2 ^ 23 ≤ m) :
    m ≠ 0 := by
  rintro rfl
  have := normal (by omega)
  omega

private theorem exists_finer :
    ∃ finer, finer = 925 ∧ double.unitsPerOne = single.unitsPerOne * 2 ^ finer :=
  ⟨925, rfl, by decide +kernel⟩

private theorem significand_bounds (nonzero : m ≠ 0) (small : m < 2 * 2 ^ 23) :
    ∃ zeros, m.log2 + (zeros + 1) = 51 ∧ 2 ^ 52 < (2 * m + 1) * 2 ^ (zeros + 1) ∧
      (2 * m + 1) * 2 ^ (zeros + 1) < 2 * 2 ^ 52 := by
  have least : 2 ^ m.log2 ≤ m := Nat.log2_self_le nonzero
  have limit : m < 2 ^ (m.log2 + 1) := Nat.lt_log2_self
  have short : m.log2 < 24 :=
    (Nat.pow_lt_pow_iff_right (by decide : 1 < 2)).mp (least.trans_lt (by omega))
  generalize m.log2 = bits at *
  obtain ⟨zeros, room⟩ : ∃ zeros, bits + (zeros + 1) = 51 := ⟨50 - bits, by omega⟩
  have powers : 2 ^ bits * 2 ^ (zeros + 1) = 2 ^ 51 := by rw [← Nat.pow_add, room]
  have pos : 0 < 2 ^ (zeros + 1) := Nat.two_pow_pos _
  have lower := Nat.mul_le_mul_right (2 ^ (zeros + 1)) least
  have upper := Nat.mul_le_mul_right (2 ^ (zeros + 1)) (Nat.succ_le_of_lt limit)
  rw [Nat.succ_eq_add_one, Nat.pow_succ 2 bits] at upper
  exact ⟨zeros, room, by linarith, by linarith⟩

private theorem units_middle {wide finer zeros E : Nat}
    (one : double.unitsPerOne = single.unitsPerOne * 2 ^ finer) (scale : e + finer = E + zeros + 2)
    (middle : 2 * (double.units wide * single.unitsPerOne) =
      (m * 2 ^ e + (m + 1) * 2 ^ e) * double.unitsPerOne) :
    double.units wide = (2 * m + 1) * 2 ^ (zeros + 1) * 2 ^ E := by
  apply Nat.eq_of_mul_eq_mul_right (unitsPerOne_pos .single)
  apply Nat.eq_of_mul_eq_mul_left (by decide : 0 < 2)
  calc 2 * (double.units wide * single.unitsPerOne)
      = (m * 2 ^ e + (m + 1) * 2 ^ e) * (single.unitsPerOne * 2 ^ finer) := by rw [middle, one]
    _ = (2 * m + 1) * 2 ^ (e + finer) * single.unitsPerOne := by rw [Nat.pow_add]; ring
    _ = 2 * ((2 * m + 1) * 2 ^ (zeros + 1) * 2 ^ E * single.unitsPerOne) := by
        rw [scale, Nat.pow_add, Nat.pow_add]; ring

-- The middle between a positive single and the next is an even rank of the doubles, and the edge
-- is twice the middle between the double next to it and the one after.
private theorem exists_edge (rank_pos : 0 < rank) (finite : rank < single.infinity) :
    ∃ wide, wide < double.infinity ∧ wide % 2 = 0 ∧ 0 < wide ∧
      2 * (double.units wide * single.unitsPerOne) =
        (single.units rank + single.units (rank + 1)) * double.unitsPerOne ∧
      edge rank = double.units (wide - rank % 2) + double.units (wide - rank % 2 + 1) := by
  obtain ⟨wide, below, middle⟩ := exists_middle finite
  obtain ⟨e, m, rfl, small, normal, here, next⟩ := single.exists_binade_units rank
  have fraction : single.fractionBits = 23 := rfl
  rw [fraction] at small normal rank_pos middle here next ⊢
  obtain ⟨zeros, room, lower, upper⟩ :=
    significand_bounds (significand_ne_zero rank_pos normal) small
  obtain ⟨finer, bits, one⟩ := exists_finer
  have more : 52 - m.log2 = zeros + 1 + 1 := by omega
  rw [edge_eq small normal, more, Nat.pow_succ 2 (zeros + 1), ← Nat.mul_assoc]
  -- The doubles of the middle's binade have this unit.
  obtain ⟨E, unit⟩ : ∃ E, E = e + m.log2 + 873 := ⟨_, rfl⟩
  obtain ⟨M, significand⟩ : ∃ M, M = (2 * m + 1) * 2 ^ (zeros + 1) := ⟨_, rfl⟩
  rw [← unit, ← significand]
  rw [← significand] at lower upper
  have units (c : Nat) (least : 2 ^ 52 ≤ c) (most : c ≤ 2 * 2 ^ 52) :
      double.units (E * 2 ^ 52 + c) = c * 2 ^ E := double.units_add most fun _ ↦ least
  obtain rfl : wide = E * 2 ^ 52 + M := by
    apply (units_strictMono .double).injective
    rw [units M lower.le upper.le, significand]
    rw [here, next] at middle
    exact units_middle one (by omega) middle
  have even : (E * 2 ^ 52 + M) % 2 = 0 := by
    have twice : E * 2 ^ 52 + M = 2 * (E * 2 ^ 51 + (2 * m + 1) * 2 ^ zeros) := by
      rw [significand]; ring
    rw [twice, Nat.mul_mod_right]
  refine ⟨_, below, even, Nat.add_pos_right _ (by omega), middle, ?_⟩
  obtain even | odd := Nat.mod_two_eq_zero_or_one (e * 2 ^ 23 + m)
  · rw [even, Nat.mul_zero, Nat.sub_zero, Nat.sub_zero, Nat.add_assoc, units M lower.le upper.le,
      units (M + 1) (by omega) upper]
    ring
  · obtain ⟨before, rfl⟩ : ∃ before, M = before + 1 := ⟨M - 1, by omega⟩
    have twice : (before + 1) * 2 + 1 - 2 * 1 = before + (before + 1) := by omega
    rw [odd, ← Nat.add_assoc, Nat.add_sub_cancel, Nat.add_assoc,
      units before (by omega) (by omega), units (before + 1) lower.le upper.le, twice, Nat.add_mul]

/-- What is rounded to a positive single at most is below its edge, or is the edge if the rank is
even. -/
theorem narrowRank_le_iff (pos : 0 < den) (rank_pos : 0 < rank) (finite : rank < single.infinity) :
    narrowRank num den ≤ rank ↔ 2 * (num * double.unitsPerOne) < edge rank * den ∨
      2 * (num * double.unitsPerOne) = edge rank * den ∧ rank % 2 = 0 := by
  obtain ⟨wide, below, even, positive, middle, sum⟩ := exists_edge rank_pos finite
  have rounded : narrowRank num den ≤ rank ↔ double.nearestRank num den ≤ wide - rank % 2 := by
    rw [narrowRank, nearestRank_le_iff (by decide) (unitsPerOne_pos _) finite, ← middle]
    have same : double.units (double.nearestRank num den) < double.units wide ↔
        double.nearestRank num den < wide := (units_strictMono .double).lt_iff_lt
    have equal : double.units (double.nearestRank num den) = double.units wide ↔
        double.nearestRank num den = wide := (units_strictMono .double).injective.eq_iff
    rw [Nat.mul_lt_mul_left (by decide), Nat.mul_lt_mul_right (unitsPerOne_pos _), same,
      Nat.mul_left_cancel_iff (by decide), Nat.mul_right_cancel_iff (unitsPerOne_pos _), equal]
    omega
  rw [rounded, nearestRank_le_iff (by decide) pos (by omega), ← sum]
  omega

private theorem log2_before (other : 2 ^ (m + 1).log2 ≠ m + 1) : m.log2 = (m + 1).log2 := by
  have least : 2 ^ (m + 1).log2 ≤ m + 1 := Nat.log2_self_le (Nat.succ_ne_zero m)
  have limit : m + 1 < 2 ^ ((m + 1).log2 + 1) := Nat.lt_log2_self
  have positive : 0 < 2 ^ (m + 1).log2 := Nat.two_pow_pos _
  exact (Nat.log2_eq_iff (by omega)).mpr ⟨by omega, by omega⟩

-- Of two ranks in a row one is odd, so that the halves of units of the doubles cancel.
private theorem halves_cancel (m start zeros : Nat) :
    (2 * m + 1) * 2 ^ zeros + 1 - 2 * ((start + m) % 2) +
      ((2 * (m + 1) + 1) * 2 ^ zeros + 1 - 2 * ((start + (m + 1)) % 2)) =
        4 * (m + 1) * 2 ^ zeros := by
  have halves :
      (2 * m + 1) * 2 ^ zeros + (2 * (m + 1) + 1) * 2 ^ zeros = 4 * (m + 1) * 2 ^ zeros := by ring
  have first : 0 < (2 * m + 1) * 2 ^ zeros := Nat.mul_pos (by omega) (Nat.two_pow_pos _)
  have second : 0 < (2 * (m + 1) + 1) * 2 ^ zeros := Nat.mul_pos (by omega) (Nat.two_pow_pos _)
  omega

/-- A positive single that is no power of two is in the middle between the edge of the one before
it and its own. -/
theorem edge_add_edge (rank_pos : 0 < rank) (other : ∀ k, single.units rank ≠ 2 ^ k) :
    1 < rank ∧ (edge (rank - 1) + edge rank) * single.unitsPerOne =
      4 * (single.units rank * double.unitsPerOne) := by
  obtain ⟨e, m, rfl, small, normal, here, -⟩ := single.exists_binade_units rank
  have fraction : single.fractionBits = 23 := rfl
  rw [fraction] at small normal rank_pos other here ⊢
  have nonzero := significand_ne_zero rank_pos normal
  have inside : 2 ^ m.log2 ≠ m := by
    intro power
    apply other (m.log2 + e)
    rw [here, Nat.pow_add, power]
  obtain ⟨before, rfl⟩ := Nat.exists_eq_succ_of_ne_zero nonzero
  rw [Nat.succ_eq_add_one] at *
  have several : before ≠ 0 := by
    rintro rfl
    exact inside (by decide)
  have normal' : 0 < e → 2 ^ 23 ≤ before := by
    intro later
    apply Nat.le_of_lt_succ
    apply Nat.lt_of_le_of_ne (normal later)
    intro power
    rw [← power, Nat.log2_two_pow] at inside
    exact inside rfl
  obtain ⟨zeros, room, -, -⟩ := significand_bounds nonzero small
  obtain ⟨finer, bits, one⟩ := exists_finer
  have scale : e + finer = zeros + 2 + (e + (before + 1).log2 + 873) := by omega
  have more : 52 - (before + 1).log2 = zeros + 2 := by omega
  rw [← Nat.add_assoc, Nat.add_sub_cancel]
  refine ⟨by omega, ?_⟩
  rw [edge_eq (by omega) normal', log2_before inside, Nat.add_assoc (e * 2 ^ 23),
    edge_eq small normal, here, one, more]
  generalize (before + 1).log2 = k at *
  calc _ = 4 * (before + 1) * 2 ^ (zeros + 2) * 2 ^ (e + k + 873) * single.unitsPerOne := by
        rw [← Nat.add_mul, halves_cancel]
    _ = 4 * (before + 1) * 2 ^ (e + finer) * single.unitsPerOne := by
        rw [Nat.mul_assoc (4 * (before + 1)), ← Nat.pow_add, ← scale]
    _ = 4 * ((before + 1) * 2 ^ e * (single.unitsPerOne * 2 ^ finer)) := by rw [Nat.pow_add]; ring

private theorem edges_mul (rank_pos : 0 < rank) (other : ∀ k, single.units rank ≠ 2 ^ k)
    (den : Nat) :
    (edge (rank - 1) * den + edge rank * den) * single.unitsPerOne =
      2 * (single.units rank * den) * (2 * double.unitsPerOne) := by
  linear_combination den * (edge_add_edge rank_pos other).2

/-- What is not further above a single than something is below it that is not rounded below the
single is not rounded above it. -/
theorem narrowRank_le_of_reflected (pos : 0 < den) (rank_pos : 0 < rank)
    (finite : rank < single.infinity) (other : ∀ k, single.units rank ≠ 2 ^ k)
    (nearer : (num + num') * single.unitsPerOne ≤ 2 * (single.units rank * den))
    (reached : rank ≤ narrowRank num den) : narrowRank num' den ≤ rank := by
  have more := (edge_add_edge rank_pos other).1
  have lower := (narrowRank_le_iff pos (by omega) (by omega)).not.mp
    (show ¬ narrowRank num den ≤ rank - 1 by omega)
  have both : 2 * (num * double.unitsPerOne) + 2 * (num' * double.unitsPerOne) ≤
      edge (rank - 1) * den + edge rank * den := by
    apply Nat.le_of_mul_le_mul_right _ (unitsPerOne_pos .single)
    rw [edges_mul rank_pos other]
    linarith [Nat.mul_le_mul_right (2 * double.unitsPerOne) nearer]
  apply (narrowRank_le_iff pos rank_pos finite).mpr
  omega

/-- What is not further below a single than something is above it that is not rounded above the
single is not rounded below it. -/
theorem le_narrowRank_of_reflected (pos : 0 < den) (rank_pos : 0 < rank)
    (finite : rank < single.infinity) (other : ∀ k, single.units rank ≠ 2 ^ k)
    (nearer : 2 * (single.units rank * den) ≤ (num + num') * single.unitsPerOne)
    (reached : narrowRank num den ≤ rank) : rank ≤ narrowRank num' den := by
  have more := (edge_add_edge rank_pos other).1
  have upper := (narrowRank_le_iff pos rank_pos finite).mp reached
  have both : edge (rank - 1) * den + edge rank * den ≤
      2 * (num * double.unitsPerOne) + 2 * (num' * double.unitsPerOne) := by
    apply Nat.le_of_mul_le_mul_right _ (unitsPerOne_pos .single)
    rw [edges_mul rank_pos other]
    linarith [Nat.mul_le_mul_right (2 * double.unitsPerOne) nearer]
  by_contra below
  have lower := (narrowRank_le_iff pos (by omega) (by omega)).mp
    (show narrowRank num' den ≤ rank - 1 by omega)
  omega

end Manifest.Binary
