import Manifest.Proofs.Number.Rounding

/-!
# Decimals of some digits

The leading digit of a positive quotient has the exponent that `leadingExponent` finds
(`exists_leadingExponent_eq`). A power of ten therefore brings the quotient to any number of digits
before the point (`Decimal.gridPower_bounds`). The nearest decimal has the whole number next to
that as its coefficient, which is no longer than asked for but for a one and zeros
(`Decimal.coefficient_nearest_le`), and differs from the quotient by half a unit of its last digit
at most (`Decimal.nearest_near`).
-/

namespace Manifest

variable {num den digits : Nat}

/-! ### Powers of ten -/

/-- A quotient stays one when it is multiplied by a power of ten. -/
theorem scaleByTen_pos (pos : 0 < den) (num : Nat) (power : Int) :
    0 < (scaleByTen num den power).2 := by
  unfold scaleByTen
  split_ifs
  · exact pos
  · exact Nat.mul_pos pos (Nat.pow_pos (by decide))

/-- A quotient times a power of ten, which is given as a quotient of two powers. -/
theorem scaleByTen_mul (num den up down : Nat) :
    (scaleByTen num den (up - down)).1 * (den * 10 ^ down) =
      num * 10 ^ up * (scaleByTen num den (up - down)).2 := by
  unfold scaleByTen
  by_cases whole : (0 : Int) ≤ up - down
  · obtain ⟨more, rfl⟩ : ∃ more, up = down + more := ⟨up - down, by omega⟩
    have power : ((down + more : Nat) - down : Int).toNat = more := by omega
    rw [if_pos whole, power, Nat.pow_eq, Nat.pow_add]
    ring
  · obtain ⟨more, rfl⟩ : ∃ more, down = up + more := ⟨down - up, by omega⟩
    have power : (-(up - (up + more : Nat)) : Int).toNat = more := by omega
    rw [if_neg whole, power, Nat.pow_eq, Nat.pow_add]
    ring

/-- The leading digit of a positive quotient is where `leadingExponent` says. -/
theorem exists_leadingExponent_eq (num_pos : 0 < num) (pos : 0 < den) :
    ∃ up down : Nat, leadingExponent num den = up - down ∧
      10 ^ up * den ≤ num * 10 ^ down ∧ num * 10 ^ down < 10 ^ (up + 1) * den := by
  unfold leadingExponent
  by_cases large : den ≤ num
  · have whole : num / den ≠ 0 := (Nat.div_pos large pos).ne'
    have width := Numeral.width_pos (num / den)
    have least := (Nat.le_div_iff_mul_le pos).mp (Numeral.pow_width_le whole)
    have limit := (Nat.div_lt_iff_lt_mul pos).mp (Numeral.lt_pow_width (num / den))
    refine ⟨Numeral.width (num / den) - 1, 0, ?_, ?_, ?_⟩
    · rw [if_pos large]
      omega
    · rwa [Nat.pow_zero, Nat.mul_one]
    · rwa [Nat.pow_zero, Nat.mul_one, Nat.sub_add_cancel width]
  · -- Here the quotient of `den` by `num` is rounded up, and its digits are those of one less.
    obtain ⟨less, above⟩ : ∃ less, (den + num - 1) / num = less + 1 :=
      ⟨(den + num - 1) / num - 1, by
        have : 1 ≤ (den + num - 1) / num := (Nat.le_div_iff_mul_le num_pos).mpr (by omega)
        omega⟩
    have low : (less + 1) * num ≤ den + num - 1 := (Nat.le_div_iff_mul_le num_pos).mp above.ge
    have high : den + num - 1 < (less + 1 + 1) * num :=
      (Nat.div_lt_iff_lt_mul num_pos).mp (Nat.lt_succ_of_le above.le)
    have other : less ≠ 0 := by
      rintro rfl
      omega
    have width := Numeral.width_pos less
    have least := Nat.mul_le_mul_right num (Numeral.pow_width_le other)
    have limit := Nat.mul_le_mul_right num (Nat.succ_le_of_lt (Numeral.lt_pow_width less))
    refine ⟨0, Numeral.width less, ?_, ?_, ?_⟩
    · rw [if_neg large, above, Nat.add_sub_cancel]
      omega
    · rw [Nat.pow_zero, Nat.one_mul, Nat.mul_comm num]
      rw [Nat.add_mul, Nat.one_mul] at high
      rw [Nat.succ_eq_add_one] at limit
      omega
    · obtain ⟨w, same⟩ := Nat.exists_eq_succ_of_ne_zero width.ne'
      rw [same, Nat.succ_sub_one] at least
      rw [Nat.add_mul, Nat.one_mul] at low
      rw [same, Nat.pow_succ, Nat.zero_add, Nat.pow_one, ← Nat.mul_assoc, Nat.mul_comm num]
      omega

namespace Decimal

/-- A power of ten brings a positive quotient to a number of digits before the point. -/
theorem gridPower_bounds (num_pos : 0 < num) (pos : 0 < den) (digits : Nat) :
    let scaled := scaleByTen num den (gridPower num den (digits + 1))
    10 ^ digits * scaled.2 ≤ scaled.1 ∧ scaled.1 < 10 ^ (digits + 1) * scaled.2 := by
  intro scaled
  obtain ⟨up, down, leading, least, limit⟩ := exists_leadingExponent_eq num_pos pos
  have power : gridPower num den (digits + 1) = ((digits + down : Nat) : Int) - (up : Nat) := by
    rw [gridPower, leading]
    push_cast
    ring
  have same : scaled.1 * (den * 10 ^ up) = num * 10 ^ (digits + down) * scaled.2 := by
    have := scaleByTen_mul num den (digits + down) up
    rwa [← power] at this
  have unit : 0 < den * 10 ^ up := Nat.mul_pos pos (Nat.pow_pos (by decide))
  rw [Nat.pow_add] at same
  constructor
  · apply Nat.le_of_mul_le_mul_right _ unit
    calc 10 ^ digits * scaled.2 * (den * 10 ^ up)
        = 10 ^ digits * scaled.2 * (10 ^ up * den) := by ring
      _ ≤ 10 ^ digits * scaled.2 * (num * 10 ^ down) := Nat.mul_le_mul_left _ least
      _ = scaled.1 * (den * 10 ^ up) := by rw [same]; ring
  · apply Nat.lt_of_mul_lt_mul_right (a := den * 10 ^ up)
    have positive : 0 < 10 ^ digits * scaled.2 :=
      Nat.mul_pos (Nat.pow_pos (by decide)) (scaleByTen_pos pos _ _)
    calc scaled.1 * (den * 10 ^ up) = 10 ^ digits * scaled.2 * (num * 10 ^ down) := by
          rw [same]; ring
      _ < 10 ^ digits * scaled.2 * (10 ^ (up + 1) * den) :=
        Nat.mul_lt_mul_of_pos_left limit positive
      _ = 10 ^ (digits + 1) * scaled.2 * (den * 10 ^ up) := by
        rw [Nat.pow_succ, Nat.pow_succ]
        ring

/-- A whole number in place of a quotient that was multiplied by a power of ten, divided by it. -/
theorem ratio_neg (coefficient num den : Nat) (power : Int) :
    let scaled := scaleByTen num den power
    let decimal : Decimal := ⟨coefficient, -power⟩
    decimal.ratio.1 * den = coefficient * scaled.2 ∧ num * decimal.ratio.2 = scaled.1 := by
  dsimp only [ratio, scaleByTen]
  rcases lt_trichotomy power 0 with below | rfl | above
  · rw [if_pos (by omega), if_neg (by omega)]
    constructor
    · ring
    · exact Nat.mul_one num
  · simp
  · rw [if_neg (by omega), if_pos (by omega), Int.neg_neg]
    exact ⟨rfl, by rw [Nat.one_mul]⟩

/-- The nearest decimal to zero is zero. -/
theorem coefficient_nearest_zero (pos : 0 < den) (digits : Nat) :
    (nearest 0 den digits).coefficient = 0 := by
  have scaled_zero : (scaleByTen 0 den (gridPower 0 den digits)).1 = 0 := by
    unfold scaleByTen
    split_ifs
    · exact Nat.zero_mul _
    · rfl
  have rounded : roundHalfEven (scaleByTen 0 den (gridPower 0 den digits)).1
      (scaleByTen 0 den (gridPower 0 den digits)).2 ≤ 0 :=
    roundHalfEven_le (scaleByTen_pos pos _ _) (by rw [scaled_zero]; exact Nat.zero_le _)
  exact Nat.le_zero.mp rounded

/-- The nearest decimal has no more digits than asked for, or is a one with zeros after it. -/
theorem coefficient_nearest_le (pos : 0 < den) (num digits : Nat) :
    (nearest num den (digits + 1)).coefficient ≤ 10 ^ (digits + 1) := by
  rcases Nat.eq_zero_or_pos num with rfl | some
  · rw [coefficient_nearest_zero pos]
    exact Nat.zero_le _
  · exact roundHalfEven_le (scaleByTen_pos pos _ _) (gridPower_bounds some pos digits).2.le

/-- The nearest decimal of some digits differs from a quotient by half a unit of its last digit at
most, and the quotient has that many units. -/
theorem nearest_near (num_pos : 0 < num) (pos : 0 < den) (digits : Nat) :
    let q := (nearest num den (digits + 1)).ratio
    2 * 10 ^ digits * (q.1 * den) ≤ (2 * 10 ^ digits + 1) * (num * q.2) ∧
      2 * 10 ^ digits * (num * q.2) ≤ 2 * 10 ^ digits * (q.1 * den) + num * q.2 := by
  intro q
  obtain ⟨scaled, same⟩ : ∃ scaled, scaled = scaleByTen num den (gridPower num den (digits + 1)) :=
    ⟨_, rfl⟩
  have units : 10 ^ digits * scaled.2 ≤ scaled.1 := same ▸ (gridPower_bounds num_pos pos digits).1
  have positive : 0 < scaled.2 := same ▸ scaleByTen_pos pos _ _
  have near := roundHalfEven_near positive scaled.1
  have rounded : (nearest num den (digits + 1)).coefficient = roundHalfEven scaled.1 scaled.2 := by
    rw [same]
    rfl
  obtain ⟨first, second⟩ : q.1 * den = (nearest num den (digits + 1)).coefficient * scaled.2 ∧
      num * q.2 = scaled.1 := by
    rw [same]
    exact ratio_neg _ num den _
  rw [← rounded, ← first, ← second] at near
  rw [← second] at units
  have above := Nat.mul_le_mul_left (10 ^ digits) near.1
  have below := Nat.mul_le_mul_left (10 ^ digits) near.2
  constructor <;> linarith

end Decimal
end Manifest
