import Mathlib.Tactic.LinearCombination
import Manifest.Proofs.Number.Digits
import Manifest.Proofs.Number.Rounding

/-!
# Numbers with a fraction

A number with a point is rounded to the nearest double and then to the nearest single, whose rank
(`Binary.narrowRank`) grows with the number. Up to 2^31 its value stays up to 2^31
(`Binary.isLiteral_convert_ofDecimal`), and every finite single magnitude comes out as it is, since
the doubles have it too (`Binary.convert_ofDecimal`).

A single magnitude is a number of least units, which have a decimal expansion. Every magnitude
below 2^31 is therefore its whole part and a rest in as many decimal places as there are binary
ones. 2^31 itself, which no whole part of a literal reaches, is what the greatest of them is
rounded to (`Binary.convert_parts`).
-/

namespace Manifest

/-! ### Digits of a fraction -/

namespace Numeral

/-- The last digits of a number, with zeros in front where it has fewer. -/
def padded : (digits : Nat) → Nat → List Char
  | 0, _ => []
  | digits + 1, n => padded digits (n / 10) ++ [digitChar (n % 10)]

/-- So many digits are written, whatever the number. -/
theorem length_padded (digits n : Nat) : (padded digits n).length = digits := by
  induction digits generalizing n with
  | zero => rfl
  | succ digits ih => rw [padded, List.length_append, ih, List.length_singleton]

/-- What is written are digits. -/
theorem isAsciiDigit_padded (digits n : Nat) : ∀ c ∈ padded digits n, isAsciiDigit c = true := by
  induction digits generalizing n with
  | zero => simp [padded]
  | succ digits ih =>
    intro c inside
    obtain high | low := List.mem_append.mp inside
    · exact ih (n / 10) c high
    · obtain rfl := List.mem_singleton.mp low
      exact isAsciiDigit_digitChar (Nat.mod_lt n (by decide))

/-- Reading the last digits of a number after others gives the number that both denote. -/
theorem valueFrom_padded (start digits n : Nat) :
    valueFrom start (padded digits n) = start * 10 ^ digits + n % 10 ^ digits := by
  induction digits generalizing n with
  | zero => simp [padded, valueFrom, Nat.mod_one]
  | succ digits ih =>
    have last : digitValue (digitChar (n % 10)) = n % 10 :=
      digitValue_digitChar (Nat.mod_lt n (by decide))
    have split : n % 10 ^ (digits + 1) = 10 * (n / 10 % 10 ^ digits) + n % 10 := by
      rw [Nat.pow_succ', Nat.mod_mul]
      omega
    rw [padded, valueFrom_append, ih, valueFrom, List.foldl_cons, List.foldl_nil, last, split,
      Nat.pow_succ]
    ring

/-- Reading a run of digits after a number does not reach the next number with zeros after it. -/
theorem valueFrom_lt {digits : List Char} (run : ∀ c ∈ digits, isAsciiDigit c = true)
    (start : Nat) : valueFrom start digits < (start + 1) * 10 ^ digits.length := by
  induction digits generalizing start with
  | nil => simp [valueFrom]
  | cons c digits ih =>
    obtain ⟨first, others⟩ := List.forall_mem_cons.mp run
    have small : digitValue c ≤ 9 := by
      have range := (isAsciiDigit_iff c).mp first
      rw [digitValue]
      omega
    calc valueFrom (10 * start + digitValue c) digits
        < (10 * start + digitValue c + 1) * 10 ^ digits.length := ih others _
      _ ≤ ((start + 1) * 10) * 10 ^ digits.length := Nat.mul_le_mul_right _ (by omega)
      _ = (start + 1) * 10 ^ (digits.length + 1) := by
        rw [Nat.pow_succ]
        ring

/-- Reading digits after a number gives the number with zeros after it and what the digits
denote. -/
theorem valueFrom_eq (start : Nat) (digits : List Char) :
    valueFrom start digits = start * 10 ^ digits.length + valueOf digits := by
  rw [valueOf]
  induction digits generalizing start with
  | nil => simp [valueFrom]
  | cons c digits ih =>
    calc valueFrom (10 * start + digitValue c) digits
        = (10 * start + digitValue c) * 10 ^ digits.length + valueFrom 0 digits := ih _
      _ = start * 10 ^ (digits.length + 1) +
          ((10 * 0 + digitValue c) * 10 ^ digits.length + valueFrom 0 digits) := by ring
      _ = start * 10 ^ (digits.length + 1) + valueFrom (10 * 0 + digitValue c) digits := by
        rw [← ih]

/-- Two runs of digits denote what the first does with zeros after it, and what the second does. -/
theorem valueOf_append (digits others : List Char) :
    valueOf (digits ++ others) = valueOf digits * 10 ^ others.length + valueOf others := by
  rw [valueOf, valueFrom_append, valueFrom_eq, ← valueOf]

/-- Reading digits after a number reaches the number with zeros after it. -/
theorem le_valueFrom (start : Nat) (digits : List Char) :
    start * 10 ^ digits.length ≤ valueFrom start digits := by
  rw [valueFrom_eq]
  exact Nat.le_add_right _ _

/-- Zeros denote nothing. -/
theorem valueOf_zeros (zeros : Nat) : valueOf (List.replicate zeros '0') = 0 := by
  induction zeros with
  | zero => rfl
  | succ zeros ih => exact ih

/-- Zeros after a run of digits multiply what it denotes. -/
theorem valueOf_append_zeros (digits : List Char) (zeros : Nat) :
    valueOf (digits ++ List.replicate zeros '0') = valueOf digits * 10 ^ zeros := by
  rw [valueOf_append, valueOf_zeros, List.length_replicate, Nat.add_zero]

/-- Zeros in front of a run of digits do not change what it denotes. -/
theorem valueOf_zeros_append (zeros : Nat) (digits : List Char) :
    valueOf (List.replicate zeros '0' ++ digits) = valueOf digits := by
  rw [valueOf_append, valueOf_zeros, Nat.zero_mul, Nat.zero_add]

/-- Zeros are digits. -/
theorem isAsciiDigit_zeros (zeros : Nat) :
    ∀ c ∈ List.replicate zeros '0', isAsciiDigit c = true := by
  intro c inside
  rw [(List.mem_replicate.mp inside).2]
  rfl

/-- A number below a power of ten is not denoted by more digits than the power has zeros, unless
these start with a zero. -/
theorem length_le {digits : List Char} {limit : Nat} (run : IsRun digits)
    (leading : digits.head? = some '0' → digits = ['0']) (pos : 0 < limit)
    (small : valueOf digits < 10 ^ limit) : digits.length ≤ limit := by
  obtain ⟨c, others, rfl⟩ := List.exists_cons_of_ne_nil run.nonempty
  by_cases zero : c = '0'
  · subst zero
    rw [leading rfl]
    exact pos
  · have digit : 1 ≤ digitValue c := by
      have range := (isAsciiDigit_iff c).mp (run.digits c List.mem_cons_self)
      have other : c.toNat ≠ 48 := fun same ↦ zero (Char.toNat_inj.mp same)
      rw [digitValue]
      omega
    have least : 10 ^ others.length ≤ valueOf (c :: others) :=
      calc 10 ^ others.length = 1 * 10 ^ others.length := (Nat.one_mul _).symm
        _ ≤ (10 * 0 + digitValue c) * 10 ^ others.length := Nat.mul_le_mul_right _ (by omega)
        _ ≤ valueOf (c :: others) := le_valueFrom _ others
    exact (Nat.pow_lt_pow_iff_right (by decide)).mp (Nat.lt_of_le_of_lt least small)

end Numeral

namespace Binary

/-! ### Two roundings -/

/-- The numbers that a literal with a point denotes: finite, from zero to 2^31, with the sign bit
clear. -/
def isLiteral : Single → Bool
  | nan => false
  | signed negative rank _ => !negative && rank != Format.single.infinity &&
    decide (Format.single.units rank ≤ Nat.pow 2 31 * Format.single.unitsPerOne)

/-- The decimals that are decided by their magnitude alone are beyond the reach of doubles. -/
theorem reach_double : Format.double.units Format.double.infinity ≤
    10 ^ (Format.double.scale + 1) * Format.double.unitsPerOne := by
  decide +kernel

/-- What is rounded to a finite number and then again is the nearest value to that number. -/
theorem convert_ofRatio {f : Format} (g : Format) {negative : Bool} {num den : Nat}
    (finite : f.nearestRank num den < f.infinity) :
    (ofRatio negative num den : Binary f).convert g =
      ofRatio negative (f.units (f.nearestRank num den)) f.unitsPerOne :=
  if_neg finite.ne

/-- The ranks of 2^31. -/
theorem units_greatest :
    Format.double.units 0x41e0000000000000 = 2 ^ 31 * Format.double.unitsPerOne ∧
      Format.single.units 0x4f000000 = 2 ^ 31 * Format.single.unitsPerOne := by
  decide +kernel

/-- The doubles reach further than the singles. -/
theorem units_infinity_le :
    Format.single.units Format.single.infinity * Format.double.unitsPerOne ≤
      Format.double.units Format.double.infinity * Format.single.unitsPerOne := by
  decide +kernel

/-- The rank of the single nearest to the double nearest to a quotient. -/
def narrowRank (num den : Nat) : Nat :=
  Format.single.nearestRank (Format.double.units (Format.double.nearestRank num den))
    Format.double.unitsPerOne

/-- There is no rank beyond that of infinity. -/
theorem narrowRank_le (num den : Nat) : narrowRank num den ≤ Format.single.infinity :=
  Nat.min_le_right _ _

/-- What is not greater has no greater rank. -/
theorem narrowRank_mono {num den num' den' : Nat} (pos : 0 < den) (pos' : 0 < den')
    (le : num * den' ≤ num' * den) : narrowRank num den ≤ narrowRank num' den' := by
  apply Format.nearestRank_mono _ (Format.unitsPerOne_pos _) (Format.unitsPerOne_pos _)
  apply Nat.mul_le_mul_right
  exact (Format.units_strictMono .double).monotone (Format.nearestRank_mono _ pos pos' le)

/-- A decimal is rounded to a double and then to the single of this rank. -/
theorem convert_ofDecimal_eq (negative : Bool) (d : Decimal) :
    (ofDecimal negative d : Double).convert .single =
      .signed negative (narrowRank d.ratio.1 d.ratio.2) (narrowRank_le _ _) := by
  rw [ofDecimal_eq_ofRatio reach_double]
  by_cases finite : Format.double.nearestRank d.ratio.1 d.ratio.2 < Format.double.infinity
  · rw [convert_ofRatio _ finite]
    rfl
  · have rank_infinity : Format.double.nearestRank d.ratio.1 d.ratio.2 = Format.double.infinity :=
      Nat.le_antisymm (Nat.min_le_right _ _) (Nat.not_lt.mp finite)
    have infinite : narrowRank d.ratio.1 d.ratio.2 = Format.single.infinity := by
      apply Nat.le_antisymm (narrowRank_le _ _)
      rw [narrowRank, rank_infinity]
      exact Format.le_nearestRank (Format.unitsPerOne_pos .double)
        (Nat.le_refl _) units_infinity_le
    simp only [ofRatio, rank_infinity, infinite]
    exact convert_infinite _ negative

/-- 2^31 is a single. -/
theorem narrowRank_greatest : narrowRank (2 ^ 31) 1 = 0x4f000000 := by
  decide +kernel

/-- What is up to 2^31 is not rounded above it. -/
theorem narrowRank_le_greatest {num den : Nat} (pos : 0 < den) (small : num ≤ 2 ^ 31 * den) :
    narrowRank num den ≤ 0x4f000000 := by
  rw [← narrowRank_greatest]
  exact narrowRank_mono pos Nat.one_pos (by rwa [Nat.mul_one])

/-- A decimal up to 2^31 is rounded to a number that a literal denotes. -/
theorem isLiteral_convert_ofDecimal {d : Decimal} (small : d.ratio.1 ≤ 2 ^ 31 * d.ratio.2) :
    isLiteral ((ofDecimal false d : Double).convert .single) = true := by
  have rounded := narrowRank_le_greatest d.ratio_pos small
  have bound := (Format.units_strictMono .single).monotone rounded
  rw [units_greatest.2] at bound
  have other := (lt_of_le_of_lt rounded (by decide : 0x4f000000 < Format.single.infinity)).ne
  rw [convert_ofDecimal_eq]
  simp only [isLiteral, Bool.not_false, Bool.true_and, Bool.and_eq_true, bne_iff_ne,
    decide_eq_true_eq]
  exact ⟨other, bound⟩

/-- Each eighth of the way from a single to the next is a double. -/
theorem exists_eighth (rank : Nat) {a b : Nat} (eight : a + b = 8) :
    ∃ wide, 8 * (Format.double.units wide * Format.single.unitsPerOne) =
      (a * Format.single.units rank + b * Format.single.units (rank + 1)) *
        Format.double.unitsPerOne := by
  obtain ⟨e, m, -, small, -, here, next⟩ := Format.single.exists_binade_units rank
  have bits : m < 2 * 2 ^ 23 := small
  have short : 8 * m + b ≤ 2 * 2 ^ Format.double.fractionBits := by
    show 8 * m + b ≤ 2 * 2 ^ 52
    omega
  -- The unit of the doubles is an eighth of that of the singles, halved many times over.
  obtain ⟨finer, one⟩ : ∃ finer,
      Format.double.unitsPerOne = Format.single.unitsPerOne * (8 * 2 ^ finer) :=
    ⟨922, by decide +kernel⟩
  obtain ⟨wide, units⟩ := Format.double.exists_units_eq short (e + finer)
  refine ⟨wide, ?_⟩
  rw [units, here, next, one, Nat.pow_add]
  generalize Format.single.unitsPerOne = unit
  calc 8 * ((8 * m + b) * (2 ^ e * 2 ^ finer) * unit)
      = ((a + b) * m + b) * 2 ^ e * (unit * (8 * 2 ^ finer)) := by rw [eight]; ring
    _ = (a * (m * 2 ^ e) + b * ((m + 1) * 2 ^ e)) * (unit * (8 * 2 ^ finer)) := by ring

/-- The doubles have every finite single magnitude. -/
theorem exists_wide {rank : Nat} (finite : rank < Format.single.infinity) :
    ∃ wide, wide < Format.double.infinity ∧
      Format.double.units wide * Format.single.unitsPerOne =
        Format.single.units rank * Format.double.unitsPerOne := by
  obtain ⟨wide, eighth⟩ := exists_eighth rank (Nat.add_zero 8)
  have equal : Format.double.units wide * Format.single.unitsPerOne =
      Format.single.units rank * Format.double.unitsPerOne := by
    linarith
  refine ⟨wide, (Format.units_strictMono .double).lt_iff_lt.mp ?_, equal⟩
  refine lt_of_mul_lt_mul_right (lt_of_lt_of_le ?_ units_infinity_le) (Nat.zero_le _)
  rw [equal]
  exact Nat.mul_lt_mul_of_pos_right (Format.units_strictMono .single finite)
    (Format.unitsPerOne_pos _)

/-- A single magnitude is rounded to itself. -/
theorem narrowRank_eq {num den rank : Nat} (pos : 0 < den) (finite : rank < Format.single.infinity)
    (exactly : num * Format.single.unitsPerOne = Format.single.units rank * den) :
    narrowRank num den = rank := by
  obtain ⟨wide, below, equal⟩ := exists_wide finite
  have first : Format.double.nearestRank num den = wide := by
    apply Format.nearestRank_eq pos below.le
    apply Nat.eq_of_mul_eq_mul_right (Format.unitsPerOne_pos .single)
    linear_combination Format.double.unitsPerOne * exactly - den * equal
  rw [narrowRank, first]
  exact Format.nearestRank_eq (Format.unitsPerOne_pos _) finite.le equal

/-- A decimal that is a finite single magnitude is rounded to that. -/
theorem convert_ofDecimal {d : Decimal} {rank : Nat} {le : rank ≤ Format.single.infinity}
    (finite : rank < Format.single.infinity) (negative : Bool)
    (exactly : d.ratio.1 * Format.single.unitsPerOne = Format.single.units rank * d.ratio.2) :
    (ofDecimal negative d : Double).convert .single = .signed negative rank le := by
  rw [convert_ofDecimal_eq]
  simp only [narrowRank_eq d.ratio_pos finite exactly]

/-! ### Digits for a number -/

/-- The whole part of a number, up to the greatest one of a literal. -/
def wholePart : Single → Nat
  | nan => 0
  | signed _ rank _ => min (Format.single.units rank / Format.single.unitsPerOne) 0x7fffffff

/-- The decimal places of a single magnitude: as many as it has binary ones. -/
def places : Nat := Format.single.scale

/-- The rest of a number after its whole part, in decimal places. -/
def fractionPart : Single → Nat
  | nan => 0
  | signed _ rank _ =>
    Format.single.units rank % Format.single.unitsPerOne * Nat.pow 5 places

private theorem ten_pow_places : 10 ^ places = Format.single.unitsPerOne * 5 ^ places :=
  Nat.mul_pow 2 5 _

/-- A whole part is within the bound of integer literals. -/
theorem wholePart_le (x : Single) : x.wholePart ≤ 0x7fffffff := by
  cases x with
  | nan => exact Nat.zero_le _
  | signed negative rank le => exact Nat.min_le_right _ _

/-- The rest of a number is less than one. -/
theorem fractionPart_lt (x : Single) : x.fractionPart < 10 ^ places := by
  rw [ten_pow_places]
  have pos := Format.unitsPerOne_pos .single
  cases x with
  | nan => exact Nat.mul_pos pos (Nat.pow_pos (by decide))
  | signed negative rank le =>
    exact Nat.mul_lt_mul_of_pos_right (Nat.mod_lt _ pos) (Nat.pow_pos (by decide))

private theorem convert_greatest {le : 0x4f000000 ≤ Format.single.infinity} :
    (ofDecimal false ⟨0x7fffffff * 10 ^ places, -(places : Int)⟩ : Double).convert .single =
      .signed false 0x4f000000 le := by
  have rounded : narrowRank (0x7fffffff * 10 ^ places) (10 ^ places) = 0x4f000000 := by
    decide +kernel
  rw [convert_ofDecimal_eq]
  simp only [Decimal.ratio_fraction, rounded]

/-- A number that a literal denotes is what its whole part and the rest after it are rounded to. -/
theorem convert_parts {x : Single} (literal : x.isLiteral = true) :
    (ofDecimal false ⟨x.wholePart * 10 ^ places + x.fractionPart, -(places : Int)⟩ :
      Double).convert .single = x := by
  cases x with
  | nan => cases literal
  | signed negative rank le =>
    simp only [isLiteral, Bool.and_eq_true, Bool.not_eq_true', bne_iff_ne, ne_eq,
      decide_eq_true_eq, Nat.pow_eq] at literal
    obtain ⟨⟨rfl, finite⟩, small⟩ := literal
    have pos := Format.unitsPerOne_pos .single
    obtain below | equal := Nat.lt_or_eq_of_le small
    · have whole : Format.single.units rank / Format.single.unitsPerOne < 2 ^ 31 :=
        (Nat.div_lt_iff_lt_mul pos).mpr below
      refine convert_ofDecimal (Nat.lt_of_le_of_ne le finite) false ?_
      have parts := Nat.div_add_mod (Format.single.units rank) Format.single.unitsPerOne
      rw [Decimal.ratio_fraction, wholePart, Nat.min_eq_left (by omega), fractionPart,
        ten_pow_places, Nat.pow_eq]
      linear_combination Format.single.unitsPerOne * 5 ^ places * parts
    · -- No whole part is as great as 2^31.
      have whole : Format.single.units rank / Format.single.unitsPerOne = 2 ^ 31 := by
        rw [equal, Nat.mul_div_cancel _ pos]
      have rest : Format.single.units rank % Format.single.unitsPerOne = 0 := by
        rw [equal, Nat.mul_mod_left]
      rw [wholePart, whole, fractionPart, rest, Nat.zero_mul, Nat.add_zero]
      rw [← units_greatest.2] at equal
      obtain rfl := (Format.units_strictMono .single).injective equal
      exact convert_greatest

end Binary
end Manifest
