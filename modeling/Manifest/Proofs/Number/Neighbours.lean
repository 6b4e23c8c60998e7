import Manifest.Proofs.Number.Grid
import Manifest.Proofs.Number.Shortest

/-!
# Decimals next to a quotient

Of the decimals with a number of digits, one is the greatest that is not above a positive quotient
(`Decimal.lower`), and the other next to the quotient is a unit of the last digit greater
(`Decimal.upper`). No decimal with as many digits or fewer is strictly between the two
(`Decimal.le_lower_or_upper_le`), and the nearest decimal is the one of them that is not further
away (`Decimal.nearest_eq`).
-/

namespace Manifest.Decimal

variable {num den digits : Nat}

/-- The greatest decimal of a number of digits that is not above a quotient. -/
def lower (num den digits : Nat) : Decimal :=
  let scaled := scaleByTen num den (gridPower num den digits)
  ⟨scaled.1 / scaled.2, -gridPower num den digits⟩

/-- The decimal of a number of digits after the greatest that is not above a quotient. -/
def upper (num den digits : Nat) : Decimal :=
  ⟨(lower num den digits).coefficient + 1, (lower num den digits).exponent⟩

private theorem ratio_snd (coefficient other : Nat) (exponent : Int) :
    (⟨coefficient, exponent⟩ : Decimal).ratio.2 = (⟨other, exponent⟩ : Decimal).ratio.2 := by
  dsimp only [ratio, scaleByTen]
  split_ifs <;> rfl

private theorem ratio_fst_mono {few many : Nat} (le : few ≤ many) (exponent : Int) :
    (⟨few, exponent⟩ : Decimal).ratio.1 ≤ (⟨many, exponent⟩ : Decimal).ratio.1 := by
  dsimp only [ratio, scaleByTen]
  split_ifs
  · exact Nat.mul_le_mul_right _ le
  · exact le

/-- The two decimals next to a quotient have one denominator. -/
theorem ratio_upper (num den digits : Nat) :
    (upper num den digits).ratio.2 = (lower num den digits).ratio.2 := ratio_snd _ _ _

-- The decimals next to a quotient and the quotient, all multiplied by the same power of ten.
private theorem ratio_scaled (num den digits : Nat) :
    ∃ scaled, scaled = scaleByTen num den (gridPower num den digits) ∧
      (lower num den digits).ratio.1 * den = scaled.1 / scaled.2 * scaled.2 ∧
      (upper num den digits).ratio.1 * den = (scaled.1 / scaled.2 + 1) * scaled.2 ∧
      num * (lower num den digits).ratio.2 = scaled.1 := by
  refine ⟨_, rfl, ?_, ?_, ?_⟩
  · exact (ratio_neg _ num den _).1
  · exact (ratio_neg _ num den _).1
  · exact (ratio_neg _ num den _).2

/-- A quotient is not below the one decimal next to it, and is below the other. -/
theorem lower_le_lt_upper (pos : 0 < den) (num digits : Nat) :
    (lower num den digits).ratio.1 * den ≤ num * (lower num den digits).ratio.2 ∧
      num * (lower num den digits).ratio.2 < (upper num den digits).ratio.1 * den := by
  obtain ⟨scaled, same, below, above, quotient⟩ := ratio_scaled num den digits
  have positive : 0 < scaled.2 := same ▸ scaleByTen_pos pos _ _
  rw [below, above, quotient]
  exact ⟨Nat.div_mul_le_self _ _, (Nat.div_lt_iff_lt_mul positive).mp (Nat.lt_succ_self _)⟩

/-- The nearest decimal is one of the two next to the quotient, and not further away than the
other. -/
theorem nearest_eq (num den digits : Nat) :
    let sum := (lower num den digits).ratio.1 + (upper num den digits).ratio.1
    let twice := 2 * (num * (lower num den digits).ratio.2)
    nearest num den digits = lower num den digits ∧ twice ≤ sum * den ∨
      nearest num den digits = upper num den digits ∧ sum * den ≤ twice := by
  intro sum twice
  obtain ⟨scaled, same, below, above, quotient⟩ := ratio_scaled num den digits
  have both : sum * den = 2 * (scaled.1 / scaled.2 * scaled.2) + scaled.2 := by
    rw [Nat.add_mul, below, above, Nat.add_mul]
    omega
  have whole := Nat.div_add_mod' scaled.1 scaled.2
  have choice : nearest num den digits =
      ⟨roundHalfEven scaled.1 scaled.2, (lower num den digits).exponent⟩ := by
    rw [same]
    rfl
  have lowest : lower num den digits = ⟨scaled.1 / scaled.2, (lower num den digits).exponent⟩ := by
    rw [same]
    rfl
  obtain ⟨down, few⟩ | ⟨up, many⟩ := roundHalfEven_cases scaled.1 scaled.2
  · left
    constructor
    · rw [choice, down, ← lowest]
    · show 2 * (num * (lower num den digits).ratio.2) ≤ sum * den
      omega
  · right
    constructor
    · rw [choice, up, upper]
      rw [lowest]
    · show sum * den ≤ 2 * (num * (lower num den digits).ratio.2)
      omega

/-- No decimal with as many digits or fewer is strictly between the two next to a quotient. -/
theorem le_lower_or_upper_le (num_pos : 0 < num) (pos : 0 < den) {d : Decimal}
    (short : d.coefficient < 10 ^ (digits + 1)) :
    d.ratio.1 * (lower num den (digits + 1)).ratio.2 ≤
      (lower num den (digits + 1)).ratio.1 * d.ratio.2 ∨
      (upper num den (digits + 1)).ratio.1 * d.ratio.2 ≤
        d.ratio.1 * (upper num den (digits + 1)).ratio.2 := by
  obtain ⟨units, -⟩ := gridPower_bounds num_pos pos digits
  have leading : 10 ^ digits ≤ (lower num den (digits + 1)).coefficient :=
    (Nat.le_div_iff_mul_le (scaleByTen_pos pos _ _)).mpr units
  rw [ratio_upper, upper]
  obtain ⟨coefficient, exponent⟩ := d
  generalize lower num den (digits + 1) = next at *
  obtain ⟨whole, place⟩ := next
  dsimp only at short leading ⊢
  obtain within | beyond := le_or_gt place exponent
  · -- With zeros after it, the coefficient counts the same units as that of the neighbours.
    obtain ⟨zeros, rfl⟩ : ∃ zeros : Nat, exponent = place + zeros :=
      ⟨(exponent - place).toNat, by omega⟩
    have moved := ratio_mul_pow coefficient zeros place
    rw [ratio_snd whole (coefficient * 10 ^ zeros), ← moved]
    obtain above | below := Nat.lt_or_ge whole (coefficient * 10 ^ zeros)
    · exact .inr (Nat.mul_le_mul_right _ (ratio_fst_mono above place))
    · exact .inl (Nat.mul_le_mul_right _ (ratio_fst_mono below place))
  · -- The coefficient counts smaller units, and is too short to reach the neighbours.
    obtain ⟨zeros, rfl⟩ : ∃ zeros : Nat, place = exponent + (zeros + 1 : Nat) :=
      ⟨(place - exponent).toNat - 1, by omega⟩
    have moved := ratio_mul_pow whole (zeros + 1) exponent
    have few : coefficient ≤ whole * 10 ^ (zeros + 1) :=
      calc coefficient ≤ 10 ^ (digits + 1) := short.le
        _ = 10 ^ digits * 10 := Nat.pow_succ ..
        _ ≤ whole * 10 ^ (zeros + 1) :=
          Nat.mul_le_mul leading (Nat.le_self_pow (Nat.succ_ne_zero zeros) 10)
    left
    rw [ratio_snd coefficient (whole * 10 ^ (zeros + 1)), ← moved]
    exact Nat.mul_le_mul_right _ (ratio_fst_mono few exponent)

end Manifest.Decimal
