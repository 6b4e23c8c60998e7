import Manifest.Proofs.Number.Rounding

/-!
# Decimals that read back

The value nearest to a decimal depends on the number that the decimal denotes, and not on how it is
split into a coefficient and a power of ten (`Binary.ofDecimal_mul_pow`). The decimal that is
chosen for a magnitude reads back as that magnitude, either because it was tried or because it
denotes it exactly (`Binary.ofDecimal_shortest`).
-/

namespace Manifest

variable {f : Format} {num den num' den' k : Nat}

namespace Format

/-- The nearest rank stays when both parts of the quotient are multiplied. -/
theorem nearestRank_mul (f : Format) (pos : 0 < k) (num den : Nat) :
    f.nearestRank (k * num) (k * den) = f.nearestRank num den := by
  simp only [nearestRank, Nat.mul_assoc, Nat.mul_div_mul_left _ _ pos, roundHalfEven_mul pos]

/-- Equal quotients have the same nearest rank. -/
theorem nearestRank_congr (f : Format) (pos : 0 < den) (pos' : 0 < den')
    (same : num * den' = num' * den) : f.nearestRank num den = f.nearestRank num' den' :=
  calc f.nearestRank num den = f.nearestRank (den' * num) (den' * den) :=
        (f.nearestRank_mul pos' num den).symm
    _ = f.nearestRank (den * num') (den * den') := by
        rw [Nat.mul_comm den' num, same, Nat.mul_comm num' den, Nat.mul_comm den' den]
    _ = f.nearestRank num' den' := f.nearestRank_mul pos num' den'

end Format

/-- Zeros may be moved from the coefficient of a decimal to its exponent. -/
theorem Decimal.ratio_mul_pow (coefficient zeros : Nat) (exponent : Int) :
    let moved : Decimal := ⟨coefficient * 10 ^ zeros, exponent⟩
    let short : Decimal := ⟨coefficient, exponent + zeros⟩
    moved.ratio.1 * short.ratio.2 = short.ratio.1 * moved.ratio.2 := by
  dsimp only [ratio, scaleByTen]
  by_cases whole : 0 ≤ exponent
  · have both : (exponent + zeros).toNat = zeros + exponent.toNat := by omega
    rw [if_pos whole, if_pos (by omega), Nat.pow_eq, Nat.pow_eq, both, Nat.pow_add]
    ring
  · rw [if_neg whole]
    by_cases whole' : 0 ≤ exponent + zeros
    · have both : zeros = (exponent + zeros).toNat + (-exponent).toNat := by omega
      rw [if_pos whole', Nat.pow_eq, Nat.pow_eq]
      nth_rewrite 1 [both]
      rw [Nat.pow_add]
      ring
    · have both : (-exponent).toNat = zeros + (-(exponent + zeros)).toNat := by omega
      rw [if_neg whole', Nat.pow_eq, Nat.pow_eq, both, Nat.pow_add]
      ring

namespace Binary

variable {rank : Nat}

/-- Zeros may be moved from the coefficient of a decimal to its exponent, and the nearest value
stays. -/
theorem ofDecimal_mul_pow
    (reach : f.units f.infinity ≤ 10 ^ (f.scale + 1) * f.unitsPerOne) (negative : Bool)
    (coefficient zeros : Nat) (exponent : Int) :
    (ofDecimal negative ⟨coefficient * 10 ^ zeros, exponent⟩ : Binary f) =
      ofDecimal negative ⟨coefficient, exponent + zeros⟩ := by
  rw [ofDecimal_eq_ofRatio reach, ofDecimal_eq_ofRatio reach]
  simp only [ofRatio, f.nearestRank_congr (Decimal.ratio_pos _) (Decimal.ratio_pos _)
    (Decimal.ratio_mul_pow coefficient zeros exponent)]

private theorem ofDecimal_signed
    (reach : f.units f.infinity ≤ 10 ^ (f.scale + 1) * f.unitsPerOne) (negative : Bool)
    {d : Decimal} (finite : rank ≤ f.infinity)
    (nearest : f.nearestRank d.ratio.1 d.ratio.2 = rank) :
    (ofDecimal negative d : Binary f) = .signed negative rank finite := by
  rw [ofDecimal_eq_ofRatio reach]
  simp only [ofRatio, nearest]

private theorem nearestRank_expansion (finite : rank ≤ f.infinity) :
    f.nearestRank (expansion (f := f) rank).ratio.1 (expansion (f := f) rank).ratio.2 = rank := by
  rw [expansion, Decimal.ratio_fraction]
  refine Format.nearestRank_eq (Nat.pow_pos (by decide)) finite ?_
  rw [Format.unitsPerOne, Nat.pow_eq, Nat.pow_eq, Nat.mul_assoc, ← Nat.mul_pow]

/-- The decimal of the fewest digits that was found for a magnitude reads back as that
magnitude. -/
theorem ofDecimal_shortest
    (reach : f.units f.infinity ≤ 10 ^ (f.scale + 1) * f.unitsPerOne) (negative : Bool)
    (finite : rank ≤ f.infinity) :
    (ofDecimal negative (shortest (f := f) rank) : Binary f) = .signed negative rank finite := by
  apply ofDecimal_signed reach
  unfold shortest
  dsimp only
  generalize searched : List.findSome? _ _ = found
  cases found with
  | none => exact nearestRank_expansion finite
  | some d =>
    obtain ⟨i, -, tried⟩ := List.exists_of_findSome?_eq_some searched
    have readsBack := List.find?_some tried
    rw [ofDecimal_eq_ofRatio reach] at readsBack
    exact beq_iff_eq.mp readsBack

end Binary
end Manifest
