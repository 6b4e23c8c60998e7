import Mathlib.Tactic.Linarith
import Mathlib.Tactic.Ring
import Manifest.Number.Decimal

/-!
# Rounding to a binary format

Every rank is a number of units of its binade (`Format.exists_binade`, `Format.units_add`), and so
is what `Format.nearestRank` gives. The middle between a magnitude and the next decides: what is
below it is not rounded above the magnitude (`Format.nearestRank_le_of_lt`), what is above it is
(`Format.lt_nearestRank_of_lt`), and the middle itself goes to the even rank
(`Format.nearestRank_le_iff`). Rounding is therefore monotone (`Format.nearestRank_mono`), and a
magnitude of the format stays as it is (`Format.nearestRank_eq`).

The magnitude of a decimal alone decides whether it is rounded to zero or to infinity only where
rounding its quotient would have the same result (`Binary.ofDecimal_eq_ofRatio`).
-/

namespace Manifest

variable {num den num' den' k : Nat}

/-! ### To whole numbers -/

/-- A quotient is rounded down if the rest is half of the denominator at most, and up if it is at
least half. -/
theorem roundHalfEven_cases (num den : Nat) :
    roundHalfEven num den = num / den ∧ 2 * (num % den) ≤ den ∨
      roundHalfEven num den = num / den + 1 ∧ den ≤ 2 * (num % den) := by
  unfold roundHalfEven
  dsimp only
  split_ifs <;> omega

/-- What is less than half a unit above a whole number is not rounded above it. -/
theorem roundHalfEven_le_of_lt (below : 2 * num < (2 * k + 1) * den) :
    roundHalfEven num den ≤ k := by
  have whole := Nat.div_add_mod num den
  unfold roundHalfEven
  generalize num / den = q at *
  generalize num % den = r at *
  dsimp only
  rcases Nat.lt_trichotomy q k with less | rfl | more
  · split_ifs <;> omega
  · have half : 2 * r < den := by linarith
    rw [if_pos half]
  · have further : den * (k + 1) ≤ den * q := Nat.mul_le_mul_left den more
    linarith

/-- What is more than half a unit above a whole number is rounded above it. -/
theorem lt_roundHalfEven_of_lt (pos : 0 < den) (above : (2 * k + 1) * den < 2 * num) :
    k < roundHalfEven num den := by
  have whole := Nat.div_add_mod num den
  have rest := Nat.mod_lt num pos
  unfold roundHalfEven
  generalize num / den = q at *
  generalize num % den = r at *
  dsimp only
  rcases Nat.lt_trichotomy q k with less | rfl | more
  · have further : den * (q + 1) ≤ den * k := Nat.mul_le_mul_left den less
    linarith
  · have half : den < 2 * r := by linarith
    rw [if_neg (by omega), if_pos half]
    exact Nat.lt_succ_self q
  · split_ifs <;> omega

/-- Half a unit above a whole number is rounded to the even one of the two next to it. -/
theorem roundHalfEven_middle (pos : 0 < den) (middle : 2 * num = (2 * k + 1) * den) :
    roundHalfEven num den = if k % 2 = 0 then k else k + 1 := by
  have whole := Nat.div_add_mod num den
  have rest := Nat.mod_lt num pos
  unfold roundHalfEven
  generalize num / den = q at *
  generalize num % den = r at *
  dsimp only
  rcases Nat.lt_trichotomy q k with less | rfl | more
  · have further : den * (q + 1) ≤ den * k := Nat.mul_le_mul_left den less
    linarith
  · have half : 2 * r = den := by linarith
    rw [if_neg (by omega), if_neg (by omega)]
  · have further : den * (k + 1) ≤ den * q := Nat.mul_le_mul_left den more
    linarith

/-- What is at least a whole number is not rounded below it. -/
theorem le_roundHalfEven (pos : 0 < den) (above : k * den ≤ num) : k ≤ roundHalfEven num den := by
  cases k with
  | zero => exact Nat.zero_le _
  | succ k =>
    apply lt_roundHalfEven_of_lt pos
    linarith

/-- What is at most a whole number is not rounded above it. -/
theorem roundHalfEven_le (pos : 0 < den) (below : num ≤ k * den) : roundHalfEven num den ≤ k := by
  apply roundHalfEven_le_of_lt
  linarith

/-- A quotient is no further than half a unit from what it is rounded to. -/
theorem roundHalfEven_near (pos : 0 < den) (num : Nat) :
    2 * (roundHalfEven num den * den) ≤ 2 * num + den ∧
      2 * num ≤ 2 * (roundHalfEven num den * den) + den := by
  have whole := Nat.div_add_mod num den
  have rest := Nat.mod_lt num pos
  unfold roundHalfEven
  generalize num / den = q at *
  generalize num % den = r at *
  dsimp only
  split_ifs
  all_goals constructor <;> linarith

/-- A quotient is rounded in the same way when both of its parts are multiplied. -/
theorem roundHalfEven_mul (pos : 0 < k) (num den : Nat) :
    roundHalfEven (k * num) (k * den) = roundHalfEven num den := by
  have less (a b : Nat) : 2 * (k * a) < k * b ↔ 2 * a < b := by
    rw [Nat.mul_left_comm, Nat.mul_lt_mul_left pos]
  have greater (a b : Nat) : k * b < 2 * (k * a) ↔ b < 2 * a := by
    rw [Nat.mul_left_comm, Nat.mul_lt_mul_left pos]
  simp only [roundHalfEven, Nat.mul_div_mul_left _ _ pos, Nat.mul_mod_mul_left, less, greater]

/-- What is not greater is not rounded to more. -/
theorem roundHalfEven_mono (pos : 0 < den) (pos' : 0 < den') (le : num * den' ≤ num' * den) :
    roundHalfEven num den ≤ roundHalfEven num' den' := by
  -- With one denominator for both, the quotients decide, and where they agree the remainders.
  rw [← roundHalfEven_mul pos' num den, ← roundHalfEven_mul pos num' den', Nat.mul_comm den' num,
    Nat.mul_comm den num', Nat.mul_comm den' den]
  have common : 0 < den * den' := Nat.mul_pos pos pos'
  generalize num * den' = a at *
  generalize num' * den = b at *
  generalize den * den' = d at *
  have quotient : a / d ≤ b / d := Nat.div_le_div_right le
  obtain same | less := Nat.eq_or_lt_of_le quotient
  · have wholeA := Nat.div_add_mod a d
    have wholeB := Nat.div_add_mod b d
    unfold roundHalfEven
    dsimp only
    rw [same] at wholeA ⊢
    split_ifs <;> omega
  · unfold roundHalfEven
    dsimp only
    split_ifs <;> omega

namespace Format

variable {f : Format} {rank other e m : Nat}

/-- One is at least one unit. -/
theorem unitsPerOne_pos (f : Format) : 0 < f.unitsPerOne := Nat.two_pow_pos _

/-! ### Ranks in their binades -/

/-- Every rank counts units of a binade: fewer than two to the power of the bits of a significand,
and in every binade but the first at least half of that. -/
theorem exists_binade (f : Format) (rank : Nat) :
    ∃ e m, rank = e * 2 ^ f.fractionBits + m ∧ m < 2 * 2 ^ f.fractionBits ∧
      (0 < e → 2 ^ f.fractionBits ≤ m) := by
  obtain ⟨step, same⟩ : ∃ step, step = 2 ^ f.fractionBits := ⟨_, rfl⟩
  have pos : 0 < step := same ▸ Nat.two_pow_pos _
  rw [← same]
  by_cases small : rank < step
  · exact ⟨0, rank, by omega, by omega, by omega⟩
  · have quotient : 1 ≤ rank / step := (Nat.le_div_iff_mul_le pos).mpr (by omega)
    have whole := Nat.div_add_mod rank step
    have rest := Nat.mod_lt rank pos
    refine ⟨rank / step - 1, step + rank % step, ?_, by omega, by omega⟩
    obtain ⟨n, next⟩ : ∃ n, rank / step = n + 1 := ⟨rank / step - 1, by omega⟩
    rw [next] at whole ⊢
    rw [Nat.add_sub_cancel]
    linarith [Nat.mul_comm step (n + 1), Nat.add_mul n 1 step]

/-- The magnitude of a rank that counts units of a binade, or is the first of the next. -/
theorem units_add (f : Format) (small : m ≤ 2 * 2 ^ f.fractionBits)
    (normal : 0 < e → 2 ^ f.fractionBits ≤ m) :
    f.units (e * 2 ^ f.fractionBits + m) = m * 2 ^ e := by
  have pos : 0 < 2 ^ f.fractionBits := Nat.two_pow_pos _
  simp only [units, Nat.pow_eq]
  generalize 2 ^ f.fractionBits = step at *
  by_cases first : e * step + m < step
  · have zero : e = 0 := by
      by_contra other
      have := Nat.le_mul_of_pos_left step (Nat.pos_of_ne_zero other)
      omega
    subst zero
    rw [if_pos first]
    omega
  · have normal : step ≤ m := by
      by_cases zero : e = 0
      · subst zero
        omega
      · exact normal (Nat.pos_of_ne_zero zero)
    have split : e * step + m = (m - step) + (e + 1) * step := by
      rw [Nat.add_mul]
      omega
    rw [if_neg first, split, Nat.add_mul_mod_self_right, Nat.add_mul_div_right _ _ pos]
    obtain strict | rfl := Nat.lt_or_eq_of_le small
    · rw [Nat.mod_eq_of_lt (by omega), Nat.div_eq_of_lt (by omega), Nat.sub_add_cancel normal,
        Nat.zero_add, Nat.add_sub_cancel]
    · rw [Nat.two_mul, Nat.add_sub_cancel, Nat.mod_self, Nat.div_self pos, Nat.zero_add,
        Nat.add_sub_cancel_left, Nat.pow_succ]
      ring

/-- A magnitude in units of its binade, and the next one in the same units. -/
theorem exists_binade_units (f : Format) (rank : Nat) :
    ∃ e m, rank = e * 2 ^ f.fractionBits + m ∧ m < 2 * 2 ^ f.fractionBits ∧
      (0 < e → 2 ^ f.fractionBits ≤ m) ∧ f.units rank = m * 2 ^ e ∧
      f.units (rank + 1) = (m + 1) * 2 ^ e := by
  obtain ⟨e, m, rfl, small, normal⟩ := f.exists_binade rank
  have next : 0 < e → 2 ^ f.fractionBits ≤ m + 1 := fun later ↦ Nat.le_succ_of_le (normal later)
  exact ⟨e, m, rfl, small, normal, f.units_add small.le normal, f.units_add small next⟩

/-- A greater rank has a greater magnitude. -/
theorem units_strictMono (f : Format) : StrictMono f.units := by
  apply strictMono_nat_of_lt_succ
  intro rank
  obtain ⟨e, m, -, -, -, here, next⟩ := f.exists_binade_units rank
  rw [here, next]
  exact Nat.mul_lt_mul_of_pos_right (Nat.lt_succ_self m) (Nat.two_pow_pos e)

/-- A magnitude is at most as many times as great as its distance from the one before it as there
are significands. -/
theorem units_gap (f : Format) (rank : Nat) :
    2 * 2 ^ f.fractionBits * f.units rank + f.units (rank + 1) ≤
      2 * 2 ^ f.fractionBits * f.units (rank + 1) := by
  obtain ⟨e, m, -, small, -, here, next⟩ := f.exists_binade_units rank
  rw [here, next]
  have fits : (m + 1) * 2 ^ e ≤ 2 * 2 ^ f.fractionBits * 2 ^ e := Nat.mul_le_mul_right _ small
  linarith

/-- A significand with any number of zeros after it is the magnitude of some rank. -/
theorem exists_units_eq (f : Format) (small : m ≤ 2 * 2 ^ f.fractionBits) (e : Nat) :
    ∃ rank, f.units rank = m * 2 ^ e := by
  -- Zeros are moved into the significand until it is long enough.
  induction e generalizing m with
  | zero => exact ⟨_, f.units_add small (e := 0) (by omega)⟩
  | succ e ih =>
    by_cases normal : 2 ^ f.fractionBits ≤ m
    · exact ⟨_, f.units_add small fun _ ↦ normal⟩
    · obtain ⟨rank, same⟩ := ih (m := 2 * m) (by omega)
      exact ⟨rank, by rw [same, Nat.pow_succ]; ring⟩

/-! ### The nearest rank -/

private theorem two_mul_two_pow_le {a b : Nat} (lt : a < b) : 2 * 2 ^ a ≤ 2 ^ b := by
  rw [← Nat.pow_succ']
  exact Nat.pow_le_pow_right (by decide) lt

-- The nearest rank counts the units nearest to the quotient, in a binade that holds it: twice a
-- significand is more, and in every binade but the first a significand is not more.
private theorem exists_nearestRank (f : Format) (num : Nat) (pos : 0 < den) :
    ∃ b, f.nearestRank num den = min (b * 2 ^ f.fractionBits +
        roundHalfEven (num * f.unitsPerOne) (den * 2 ^ b)) f.infinity ∧
      num * f.unitsPerOne < 2 * 2 ^ f.fractionBits * 2 ^ b * den ∧
      (0 < b → 2 ^ f.fractionBits * 2 ^ b * den ≤ num * f.unitsPerOne) := by
  refine ⟨(num * f.unitsPerOne / den).log2 - f.fractionBits, rfl,
    (Nat.div_lt_iff_lt_mul pos).mp ?_, fun later ↦ (Nat.le_div_iff_mul_le pos).mp ?_⟩
  · refine lt_of_lt_of_le Nat.lt_log2_self ?_
    rw [← Nat.pow_succ', ← Nat.pow_add]
    exact Nat.pow_le_pow_right (by decide) (by omega)
  · have nonzero : num * f.unitsPerOne / den ≠ 0 := by
      intro zero
      simp [zero] at later
    rw [← Nat.pow_add, Nat.add_sub_cancel' (by omega)]
    exact Nat.log2_self_le nonzero

/-- What is below the middle between a magnitude and the next is not rounded above it. -/
theorem nearestRank_le_of_lt (pos : 0 < den)
    (below : 2 * (num * f.unitsPerOne) < (f.units rank + f.units (rank + 1)) * den) :
    f.nearestRank num den ≤ rank := by
  obtain ⟨b, same, high, low⟩ := f.exists_nearestRank num pos
  obtain ⟨e, m, place, small, normal, here, next⟩ := f.exists_binade_units rank
  rw [here, next] at below
  rw [same]
  apply le_trans (Nat.min_le_left _ _)
  generalize num * f.unitsPerOne = scaled at *
  generalize 2 ^ f.fractionBits = step at *
  have unit : 0 < den * 2 ^ b := Nat.mul_pos pos (Nat.two_pow_pos b)
  rcases Nat.lt_trichotomy b e with lower | rfl | higher
  · have rounded : roundHalfEven scaled (den * 2 ^ b) ≤ 2 * step :=
      roundHalfEven_le unit (by linarith [high])
    have further : (b + 1) * step ≤ e * step := Nat.mul_le_mul_right step lower
    have := normal (by omega)
    linarith
  · have rounded : roundHalfEven scaled (den * 2 ^ b) ≤ m := roundHalfEven_le_of_lt (by linarith)
    omega
  · -- The binade of the quotient starts above the rank.
    exfalso
    have beyond : step * (2 * 2 ^ e) * den ≤ step * 2 ^ b * den := by
      gcongr
      exact two_mul_two_pow_le higher
    have within : (m + 1) * 2 ^ e * den ≤ 2 * step * 2 ^ e * den := by
      gcongr
      exact small
    have unit_pos : 0 < 2 ^ e * den := Nat.mul_pos (Nat.two_pow_pos e) pos
    have := low (by omega)
    linarith

/-- What is above the middle between a magnitude and the next is rounded above it. -/
theorem lt_nearestRank_of_lt (pos : 0 < den) (finite : rank < f.infinity)
    (above : (f.units rank + f.units (rank + 1)) * den < 2 * (num * f.unitsPerOne)) :
    rank < f.nearestRank num den := by
  obtain ⟨b, same, high, low⟩ := f.exists_nearestRank num pos
  obtain ⟨e, m, place, small, normal, here, next⟩ := f.exists_binade_units rank
  rw [here, next] at above
  rw [same]
  apply lt_min _ finite
  generalize num * f.unitsPerOne = scaled at *
  generalize 2 ^ f.fractionBits = step at *
  have unit : 0 < den * 2 ^ b := Nat.mul_pos pos (Nat.two_pow_pos b)
  rcases Nat.lt_trichotomy e b with higher | rfl | lower
  · have rounded : step ≤ roundHalfEven scaled (den * 2 ^ b) :=
      le_roundHalfEven unit (by linarith [low (by omega)])
    have further : (e + 1) * step ≤ b * step := Nat.mul_le_mul_right step higher
    linarith
  · have rounded : m < roundHalfEven scaled (den * 2 ^ e) :=
      lt_roundHalfEven_of_lt unit (by linarith)
    omega
  · -- The binade of the quotient ends below the rank.
    exfalso
    have beyond : step * (2 * 2 ^ b) * den ≤ step * 2 ^ e * den := by
      gcongr
      exact two_mul_two_pow_le lower
    have within : step * 2 ^ e * den ≤ m * 2 ^ e * den := by
      gcongr
      exact normal (by omega)
    have unit_pos : 0 < 2 ^ e * den := Nat.mul_pos (Nat.two_pow_pos e) pos
    linarith

/-- The middle between a magnitude and the next is rounded to the one of even rank. -/
theorem nearestRank_middle (bits : 0 < f.fractionBits) (pos : 0 < den) (finite : rank < f.infinity)
    (middle : 2 * (num * f.unitsPerOne) = (f.units rank + f.units (rank + 1)) * den) :
    f.nearestRank num den = if rank % 2 = 0 then rank else rank + 1 := by
  obtain ⟨b, same, high, low⟩ := f.exists_nearestRank num pos
  obtain ⟨e, m, place, small, normal, here, next⟩ := f.exists_binade_units rank
  rw [here, next] at middle
  have parity : rank % 2 = m % 2 := by
    obtain ⟨more, halves⟩ : ∃ more, 2 ^ f.fractionBits = 2 * more :=
      ⟨2 ^ (f.fractionBits - 1), by rw [← Nat.pow_succ', Nat.succ_eq_add_one,
        Nat.sub_add_cancel bits]⟩
    rw [place, halves, Nat.mul_left_comm, Nat.mul_add_mod]
  rw [same]
  generalize num * f.unitsPerOne = scaled at *
  generalize 2 ^ f.fractionBits = step at *
  have unit : 0 < 2 ^ e * den := Nat.mul_pos (Nat.two_pow_pos e) pos
  -- The quotient lies inside the binade of the rank.
  obtain lower | rfl | higher := Nat.lt_trichotomy b e
  · exfalso
    have beyond : step * (2 * 2 ^ b) * den ≤ step * 2 ^ e * den := by
      gcongr
      exact two_mul_two_pow_le lower
    have within : step * 2 ^ e * den ≤ m * 2 ^ e * den := by
      gcongr
      exact normal (by omega)
    linarith
  · have exactly : 2 * scaled = (2 * m + 1) * (den * 2 ^ b) := by linarith
    rw [roundHalfEven_middle (Nat.mul_pos pos (Nat.two_pow_pos b)) exactly, parity]
    split <;> omega
  · exfalso
    have beyond : step * (2 * 2 ^ e) * den ≤ step * 2 ^ b * den := by
      gcongr
      exact two_mul_two_pow_le higher
    have within : (m + 1) * 2 ^ e * den ≤ 2 * step * 2 ^ e * den := by
      gcongr
      exact small
    have := low (by omega)
    linarith

/-- What is rounded to at most a magnitude is below the middle between it and the next, or is that
middle if the rank is even. -/
theorem nearestRank_le_iff (bits : 0 < f.fractionBits) (pos : 0 < den)
    (finite : rank < f.infinity) :
    f.nearestRank num den ≤ rank ↔
      2 * (num * f.unitsPerOne) < (f.units rank + f.units (rank + 1)) * den ∨
        2 * (num * f.unitsPerOne) = (f.units rank + f.units (rank + 1)) * den ∧ rank % 2 = 0 := by
  obtain below | middle | above := Nat.lt_trichotomy (2 * (num * f.unitsPerOne))
    ((f.units rank + f.units (rank + 1)) * den)
  · exact iff_of_true (nearestRank_le_of_lt pos below) (.inl below)
  · rw [nearestRank_middle bits pos finite middle]
    split <;> omega
  · have rounded := lt_nearestRank_of_lt pos finite above
    omega

/-- What is at most the magnitude of a rank is not rounded above it. -/
theorem nearestRank_le (pos : 0 < den) (below : num * f.unitsPerOne ≤ f.units rank * den) :
    f.nearestRank num den ≤ rank := by
  apply nearestRank_le_of_lt pos
  have next : f.units rank * den < f.units (rank + 1) * den :=
    Nat.mul_lt_mul_of_pos_right (f.units_strictMono (Nat.lt_succ_self rank)) pos
  linarith

/-- What is at least the magnitude of a rank is not rounded below it. -/
theorem le_nearestRank (pos : 0 < den) (finite : rank ≤ f.infinity)
    (above : f.units rank * den ≤ num * f.unitsPerOne) : rank ≤ f.nearestRank num den := by
  cases rank with
  | zero => exact Nat.zero_le _
  | succ rank =>
    apply lt_nearestRank_of_lt pos finite
    have next : f.units rank * den < f.units (rank + 1) * den :=
      Nat.mul_lt_mul_of_pos_right (f.units_strictMono (Nat.lt_succ_self rank)) pos
    linarith

/-- What is not greater has no greater rank. -/
theorem nearestRank_mono (f : Format) (pos : 0 < den) (pos' : 0 < den')
    (le : num * den' ≤ num' * den) : f.nearestRank num den ≤ f.nearestRank num' den' := by
  obtain ⟨b, same, high, low⟩ := f.exists_nearestRank num pos
  obtain ⟨b', same', high', low'⟩ := f.exists_nearestRank num' pos'
  rw [same, same']
  apply min_le_min_right
  have scaled : num * f.unitsPerOne * den' ≤ num' * f.unitsPerOne * den := by
    rw [Nat.mul_right_comm, Nat.mul_right_comm num']
    exact Nat.mul_le_mul_right _ le
  generalize num * f.unitsPerOne = n at *
  generalize num' * f.unitsPerOne = n' at *
  generalize 2 ^ f.fractionBits = step at *
  have unit : 0 < den * 2 ^ b := Nat.mul_pos pos (Nat.two_pow_pos b)
  have unit' : 0 < den' * 2 ^ b' := Nat.mul_pos pos' (Nat.two_pow_pos b')
  obtain lower | rfl | higher := Nat.lt_trichotomy b b'
  · have rounded : roundHalfEven n (den * 2 ^ b) ≤ 2 * step :=
      roundHalfEven_le unit (by linarith [high])
    have rounded' : step ≤ roundHalfEven n' (den' * 2 ^ b') :=
      le_roundHalfEven unit' (by linarith [low' (by omega)])
    have further : (b + 1) * step ≤ b' * step := Nat.mul_le_mul_right step lower
    linarith
  · have rounded : roundHalfEven n (den * 2 ^ b) ≤ roundHalfEven n' (den' * 2 ^ b) := by
      apply roundHalfEven_mono unit unit'
      linarith [Nat.mul_le_mul_right (2 ^ b) scaled]
    omega
  · -- The greater quotient ends in a binade before the one in which the smaller starts.
    exfalso
    have start : step * 2 ^ b * den * den' ≤ n * den' := Nat.mul_le_mul_right den' (low (by omega))
    have stop : n' * den < 2 * step * 2 ^ b' * den' * den := Nat.mul_lt_mul_of_pos_right high' pos
    have beyond : step * (2 * 2 ^ b') * den * den' ≤ step * 2 ^ b * den * den' := by
      gcongr
      exact two_mul_two_pow_le higher
    linarith

/-- A magnitude of the format is not rounded. -/
theorem nearestRank_eq (pos : 0 < den) (finite : rank ≤ f.infinity)
    (exactly : num * f.unitsPerOne = f.units rank * den) : f.nearestRank num den = rank :=
  Nat.le_antisymm (nearestRank_le pos exactly.le) (le_nearestRank pos finite exactly.ge)

end Format

/-! ### Decimals -/

namespace Numeral

/-- A number has at least one digit. -/
theorem width_pos (n : Nat) : 0 < width n := by
  unfold width
  split <;> omega

/-- A number is below the power of ten with as many zeros as it has digits. -/
theorem lt_pow_width (n : Nat) : n < 10 ^ width n := by
  induction n using Nat.strongRecOn with
  | ind n ih =>
    unfold width
    split
    · omega
    · have := ih (n / 10) (by omega)
      rw [Nat.pow_succ]
      omega

/-- The leading digit of a number is no zero. -/
theorem pow_width_le {n : Nat} (nonzero : n ≠ 0) : 10 ^ (width n - 1) ≤ n := by
  induction n using Nat.strongRecOn with
  | ind n ih =>
    unfold width
    split
    · exact Nat.pos_of_ne_zero nonzero
    · have := ih (n / 10) (by omega) (by omega)
      obtain ⟨w, same⟩ := Nat.exists_eq_succ_of_ne_zero (width_pos (n / 10)).ne'
      rw [same] at this ⊢
      rw [Nat.succ_sub_one] at this
      rw [Nat.add_sub_cancel, Nat.pow_succ]
      omega

/-- A number below a power of ten has no more digits than the power has zeros. -/
theorem width_le {n digits : Nat} (pos : 0 < digits) (small : n < 10 ^ digits) :
    width n ≤ digits := by
  by_cases zero : n = 0
  · subst zero
    rwa [width, if_pos (by decide)]
  · have := (Nat.pow_lt_pow_iff_right (by decide)).mp (lt_of_le_of_lt (pow_width_le zero) small)
    omega

end Numeral

namespace Decimal

variable {d : Decimal}

private theorem ratio_of_nonneg (whole : 0 ≤ d.exponent) :
    d.ratio = (d.coefficient * 10 ^ d.exponent.toNat, 1) := by
  simp [ratio, scaleByTen, whole]

private theorem ratio_of_neg (fraction : d.exponent < 0) :
    d.ratio = (d.coefficient, 10 ^ (-d.exponent).toNat) := by
  simp [ratio, scaleByTen, Int.not_le.mpr fraction]

/-- A decimal with some places after the point. -/
theorem ratio_fraction (coefficient places : Nat) :
    (⟨coefficient, -(places : Int)⟩ : Decimal).ratio = (coefficient, 10 ^ places) := by
  cases places with
  | zero => exact (ratio_of_nonneg (Int.le_refl 0)).trans (by simp)
  | succ places => exact (ratio_of_neg (by dsimp only; omega)).trans (by simp)

/-- A decimal is a quotient. -/
theorem ratio_pos (d : Decimal) : 0 < d.ratio.2 := by
  obtain whole | fraction := le_or_gt 0 d.exponent
  · simp [ratio_of_nonneg whole]
  · simp [ratio_of_neg fraction]

/-- A decimal without digits before the point, nor in some places after it. -/
theorem ratio_lt {zeros : Nat} (small : d.magnitude ≤ -(zeros : Int)) :
    d.ratio.1 * 10 ^ zeros < d.ratio.2 := by
  have pos := Numeral.width_pos d.coefficient
  rw [magnitude] at small
  rw [ratio_of_neg (by omega)]
  calc d.coefficient * 10 ^ zeros < 10 ^ Numeral.width d.coefficient * 10 ^ zeros :=
        Nat.mul_lt_mul_of_pos_right (Numeral.lt_pow_width _) (Nat.pow_pos (by decide))
    _ = 10 ^ (Numeral.width d.coefficient + zeros) := (Nat.pow_add ..).symm
    _ ≤ 10 ^ (-d.exponent).toNat := Nat.pow_le_pow_right (by decide) (by omega)

/-- A decimal with a leading digit that is some places before the point. -/
theorem le_ratio {zeros : Nat} (nonzero : d.coefficient ≠ 0)
    (great : (zeros : Int) < d.magnitude) :
    10 ^ zeros * d.ratio.2 ≤ d.ratio.1 := by
  have leading := Numeral.pow_width_le nonzero
  have pos := Numeral.width_pos d.coefficient
  rw [magnitude] at great
  obtain whole | fraction := le_or_gt 0 d.exponent
  · rw [ratio_of_nonneg whole]
    calc 10 ^ zeros * 1 = 10 ^ zeros := Nat.mul_one _
      _ ≤ 10 ^ (Numeral.width d.coefficient - 1 + d.exponent.toNat) :=
        Nat.pow_le_pow_right (by decide) (by omega)
      _ = 10 ^ (Numeral.width d.coefficient - 1) * 10 ^ d.exponent.toNat := Nat.pow_add ..
      _ ≤ d.coefficient * 10 ^ d.exponent.toNat := Nat.mul_le_mul_right _ leading
  · rw [ratio_of_neg fraction]
    calc 10 ^ zeros * 10 ^ (-d.exponent).toNat = 10 ^ (zeros + (-d.exponent).toNat) :=
        (Nat.pow_add ..).symm
      _ ≤ 10 ^ (Numeral.width d.coefficient - 1) := Nat.pow_le_pow_right (by decide) (by omega)
      _ ≤ d.coefficient := leading

end Decimal

/-- Less than half of the least positive magnitude is rounded to zero. -/
theorem Format.nearestRank_eq_zero {f : Format} (small : 2 * (num * f.unitsPerOne) < den) :
    f.nearestRank num den = 0 := by
  have quotient : num * f.unitsPerOne / den = 0 := Nat.div_eq_of_lt (by omega)
  have rest : num * f.unitsPerOne % den = num * f.unitsPerOne := Nat.mod_eq_of_lt (by omega)
  simp [nearestRank, quotient, roundHalfEven, rest, small]

namespace Binary

variable {f : Format}

/-- The value nearest to a decimal is the value nearest to its quotient, if the format does not
reach beyond the decimals with one digit more before the point than the format has bits after
it. -/
theorem ofDecimal_eq_ofRatio
    (reach : f.units f.infinity ≤ 10 ^ (f.scale + 1) * f.unitsPerOne) (negative : Bool)
    (d : Decimal) : (ofDecimal negative d : Binary f) = ofRatio negative d.ratio.1 d.ratio.2 := by
  have pos := d.ratio_pos
  unfold ofDecimal
  split_ifs with tiny huge
  · have rank_zero : f.nearestRank d.ratio.1 d.ratio.2 = 0 := by
      obtain zero | low := tiny
      · refine Nat.le_zero.mp (Format.nearestRank_le pos ?_)
        simp [Decimal.ratio, scaleByTen, zero, apply_ite]
      · have few : d.ratio.1 * 10 ^ (f.scale + 1) < d.ratio.2 :=
          Decimal.ratio_lt (by push_cast; omega)
        refine Format.nearestRank_eq_zero (lt_of_le_of_lt ?_ few)
        have bits : 2 * 2 ^ f.scale ≤ 10 ^ (f.scale + 1) := by
          rw [← Nat.pow_succ']
          exact Nat.pow_le_pow_left (by decide) _
        calc 2 * (d.ratio.1 * f.unitsPerOne) = d.ratio.1 * (2 * 2 ^ f.scale) := by
              rw [Format.unitsPerOne, Nat.pow_eq]
              ring
          _ ≤ d.ratio.1 * 10 ^ (f.scale + 1) := Nat.mul_le_mul_left _ bits
    simp only [zero, ofRatio, rank_zero]
  · have nonzero : d.coefficient ≠ 0 := fun zero ↦ tiny (.inl zero)
    have many : 10 ^ (f.scale + 1) * d.ratio.2 ≤ d.ratio.1 :=
      Decimal.le_ratio nonzero (by push_cast; omega)
    have rank_infinity : f.nearestRank d.ratio.1 d.ratio.2 = f.infinity := by
      refine Nat.le_antisymm (Nat.min_le_right _ _) (Format.le_nearestRank pos (Nat.le_refl _) ?_)
      calc f.units f.infinity * d.ratio.2
          ≤ 10 ^ (f.scale + 1) * f.unitsPerOne * d.ratio.2 := Nat.mul_le_mul_right _ reach
        _ = 10 ^ (f.scale + 1) * d.ratio.2 * f.unitsPerOne := Nat.mul_right_comm ..
        _ ≤ d.ratio.1 * f.unitsPerOne := Nat.mul_le_mul_right _ many
    simp only [infinite, ofRatio, rank_infinity]
  · rfl

end Binary
end Manifest
