import Manifest.Proofs.Number.Candidate
import Manifest.Proofs.Number.Edge
import Manifest.Proofs.Number.Neighbours

/-!
# The fewest digits

Where any decimal of some digits reads back as a single, one of the two next to the single does
(`Binary.lower_or_upper_reads`). The nearest of them is the one that is tried. It reads back if the
other does, since what is rounded to a single reaches as far to one side as to the other
(`Binary.nearest_reads_of_regular`), except at the powers of two. Of these, which are few enough to
try them all, three have a decimal of eight digits that is not tried (`Binary.nearest_reads`).
-/

namespace Manifest.Binary

open Format
open Decimal (lower upper nearest)

variable {rank digits : Nat}

-- The rank of the single that a decimal is rounded to by way of the doubles.
private def read (d : Decimal) : Nat := narrowRank d.ratio.1 d.ratio.2

private theorem read_mono {d d' : Decimal} (le : d.ratio.1 * d'.ratio.2 ≤ d'.ratio.1 * d.ratio.2) :
    read d ≤ read d' := narrowRank_mono d.ratio_pos d'.ratio_pos le

private theorem read_lower_upper (finite : rank < single.infinity) (digits : Nat) :
    read (lower (single.units rank) single.unitsPerOne digits) ≤ rank ∧
      rank ≤ read (upper (single.units rank) single.unitsPerOne digits) := by
  have one := unitsPerOne_pos .single
  have exactly : narrowRank (single.units rank) single.unitsPerOne = rank :=
    narrowRank_eq one finite rfl
  obtain ⟨below, above⟩ := Decimal.lower_le_lt_upper one (single.units rank) digits
  rw [← Decimal.ratio_upper] at above
  constructor
  · exact (narrowRank_mono (Decimal.ratio_pos _) one below).trans_eq exactly
  · exact exactly.symm.trans_le (narrowRank_mono one (Decimal.ratio_pos _) above.le)

private theorem lower_or_upper_reads (rank_pos : 0 < rank) (finite : rank < single.infinity)
    {d : Decimal} (short : d.coefficient < 10 ^ (digits + 1)) (reads : read d = rank) :
    read (lower (single.units rank) single.unitsPerOne (digits + 1)) = rank ∨
      read (upper (single.units rank) single.unitsPerOne (digits + 1)) = rank := by
  obtain ⟨low, high⟩ := read_lower_upper finite (digits + 1)
  have units : 0 < single.units rank :=
    lt_of_le_of_lt (Nat.zero_le _) (units_strictMono .single rank_pos)
  obtain below | above := Decimal.le_lower_or_upper_le units (unitsPerOne_pos .single) short
  · left
    exact Nat.le_antisymm low (reads.symm.trans_le (read_mono below))
  · right
    exact Nat.le_antisymm ((read_mono above).trans_eq reads) high

-- What is rounded to a single that is no power of two reaches as far to one side as to the other.
private theorem nearest_reads_of_regular (rank_pos : 0 < rank) (finite : rank < single.infinity)
    (other : ∀ k, single.units rank ≠ 2 ^ k)
    (reads : read (lower (single.units rank) single.unitsPerOne digits) = rank ∨
      read (upper (single.units rank) single.unitsPerOne digits) = rank) :
    read (nearest (single.units rank) single.unitsPerOne digits) = rank := by
  obtain ⟨low, high⟩ := read_lower_upper finite digits
  have pos := (lower (single.units rank) single.unitsPerOne digits).ratio_pos
  have same := Decimal.ratio_upper (single.units rank) single.unitsPerOne digits
  obtain ⟨choice, near⟩ | ⟨choice, near⟩ :=
    Decimal.nearest_eq (single.units rank) single.unitsPerOne digits
  · rw [choice]
    obtain done | reads := reads
    · exact done
    · apply Nat.le_antisymm low
      rw [read, same] at reads
      rw [Nat.add_comm] at near
      exact le_narrowRank_of_reflected pos rank_pos finite other near reads.le
  · rw [choice]
    obtain reads | done := reads
    · apply Nat.le_antisymm _ high
      rw [read, same]
      exact narrowRank_le_of_reflected pos rank_pos finite other near reads.ge
    · exact done

/-! ### Powers of two -/

/-- The rank of the single that is a power of two in least units. -/
def powerRank (k : Nat) : Nat :=
  if k < 23 then Nat.pow 2 k else (k - 22) * 0x800000

/-- The magnitude of a rank of a power of two. -/
theorem units_powerRank (k : Nat) : single.units (powerRank k) = 2 ^ k := by
  have fraction : single.fractionBits = 23 := rfl
  unfold powerRank
  split_ifs with subnormal
  · have small : 2 ^ k ≤ 2 * 2 ^ single.fractionBits := by
      rw [fraction]
      have := Nat.pow_le_pow_right (n := 2) (by decide) subnormal.le
      omega
    have units := single.units_add small (e := 0) (by omega)
    rwa [Nat.zero_mul, Nat.zero_add, Nat.pow_zero, Nat.mul_one] at units
  · obtain ⟨e, rfl⟩ : ∃ e, k = 23 + e := ⟨k - 23, by omega⟩
    have units :=
      single.units_add (m := 2 ^ single.fractionBits) (e := e) (by omega) (fun _ ↦ Nat.le_refl _)
    have place : (23 + e - 22) * 0x800000 = e * 2 ^ 23 + 2 ^ 23 := by omega
    rw [place, Nat.pow_add]
    exact units

private theorem exists_powerRank {k : Nat} (finite : rank < single.infinity)
    (power : single.units rank = 2 ^ k) :
    k < 277 ∧ rank = powerRank k := by
  constructor
  · have less := units_strictMono .single finite
    obtain ⟨last, top, bound⟩ : ∃ last, single.infinity = powerRank last ∧ last = 277 :=
      ⟨277, by decide, rfl⟩
    rw [power, top, units_powerRank] at less
    exact bound ▸ (Nat.pow_lt_pow_iff_right (by decide)).mp less
  · apply (units_strictMono .single).injective
    rw [power, units_powerRank]

private theorem read_eq_iff (more : 1 < rank) (even : rank % 2 = 0)
    (finite : rank < single.infinity) (d : Decimal) :
    read d = rank ↔ edge (rank - 1) * d.ratio.2 ≤ 2 * (d.ratio.1 * double.unitsPerOne) ∧
      2 * (d.ratio.1 * double.unitsPerOne) ≤ edge rank * d.ratio.2 := by
  have above : narrowRank d.ratio.1 d.ratio.2 ≤ rank ↔ _ :=
    narrowRank_le_iff d.ratio_pos (by omega) finite
  have below : narrowRank d.ratio.1 d.ratio.2 ≤ rank - 1 ↔ _ :=
    narrowRank_le_iff d.ratio_pos (by omega) (by omega)
  unfold read
  omega

-- Whether the nearest decimal of some digits reads back as a single, where the other next to the
-- single does.
private def settled (rank digits : Nat) : Bool :=
  let readsBack (d : Decimal) : Bool :=
    let q := d.ratio
    let twice := 2 * (q.1 * double.unitsPerOne)
    decide (edge (rank - 1) * q.2 ≤ twice) && decide (twice ≤ edge rank * q.2)
  let num := single.units rank
  let den := single.unitsPerOne
  readsBack (nearest num den digits) ||
    !(readsBack (lower num den digits) || readsBack (upper num den digits))

/-- The ranks of 2^-96, 2^87 and 2^90. -/
def missed : List Nat := [0x0f800000, 0x6b000000, 0x6c800000]

private theorem settled_powerRank : (List.range 276).all (fun k ↦ (List.range 8).all fun i ↦
    settled (powerRank (k + 1)) (i + 1) || i == 7 && missed.contains (powerRank (k + 1))) =
      true := by
  decide +kernel

private theorem nearest_reads_of_settled (more : 1 < rank) (even : rank % 2 = 0)
    (finite : rank < single.infinity) (found : settled rank digits = true)
    (reads : read (lower (single.units rank) single.unitsPerOne digits) = rank ∨
      read (upper (single.units rank) single.unitsPerOne digits) = rank) :
    read (nearest (single.units rank) single.unitsPerOne digits) = rank := by
  have back (d : Decimal) :
      (decide (edge (rank - 1) * d.ratio.2 ≤ 2 * (d.ratio.1 * double.unitsPerOne)) &&
      decide (2 * (d.ratio.1 * double.unitsPerOne) ≤ edge rank * d.ratio.2)) =
        decide (read d = rank) := by
    rw [← Bool.decide_and, decide_eq_decide, read_eq_iff more even finite]
  simp only [settled, back, Bool.or_eq_true, Bool.not_eq_true', Bool.or_eq_false_iff,
    decide_eq_true_eq, decide_eq_false_iff_not] at found
  obtain done | ⟨notLower, notUpper⟩ := found
  · exact done
  · exact absurd reads (not_or.mpr ⟨notLower, notUpper⟩)

private theorem even_powerRank (k : Nat) : 1 < powerRank (k + 1) ∧ powerRank (k + 1) % 2 = 0 := by
  unfold powerRank
  have pos : 0 < 2 ^ k := Nat.two_pow_pos k
  rw [Nat.pow_eq, Nat.pow_succ]
  split_ifs <;> omega

private theorem least_reads :
    ∀ i < 8, read (nearest (single.units 1) single.unitsPerOne (i + 1)) = 1 := by
  decide +kernel

/-- If a decimal of at most eight digits reads back as a single, the nearest with as many digits
does. The only exceptions are decimals of eight digits for three powers of two. -/
theorem nearest_reads (rank_pos : 0 < rank) (finite : rank < single.infinity) (few : digits < 8)
    (tried : digits = 7 → rank ∉ missed) {d : Decimal} (short : d.coefficient < 10 ^ (digits + 1))
    (reads : narrowRank d.ratio.1 d.ratio.2 = rank) :
    let q := (nearest (single.units rank) single.unitsPerOne (digits + 1)).ratio
    narrowRank q.1 q.2 = rank := by
  have next := lower_or_upper_reads rank_pos finite short reads
  by_cases power : ∃ k, single.units rank = 2 ^ k
  · obtain ⟨k, power⟩ := power
    obtain ⟨bound, rfl⟩ := exists_powerRank finite power
    cases k with
    | zero => exact least_reads digits few
    | succ k =>
      obtain ⟨more, even⟩ := even_powerRank k
      have settled := settled_powerRank
      simp only [List.all_eq_true, List.mem_range, Bool.or_eq_true, Bool.and_eq_true, beq_iff_eq,
        List.contains_iff_mem] at settled
      obtain found | ⟨seven, listed⟩ := settled k (by omega) digits few
      · exact nearest_reads_of_settled more even finite found next
      · exact absurd listed (tried seven)
  · exact nearest_reads_of_regular rank_pos finite (not_exists.mp power) next

/-! ### The first candidate -/

/-- The digits of the first of the candidates of one to nine digits that is rounded to a number
equal to the single. -/
def candidateDigits? (x : Single) : Option Nat :=
  (List.range' 1 9).find? fun digits ↦ ((x.candidate digits).convert .single).numEq x

/-- The first candidate is the candidate of these digits. -/
theorem firstCandidate?_eq_map (x : Single) :
    x.firstCandidate? = x.candidateDigits?.map x.candidate := by
  have candidates :
      (List.range 9).map (fun i ↦ x.candidate (i + 1)) = (List.range' 1 9).map x.candidate := by
    simp [List.range'_eq_map_range, Function.comp_def, Nat.add_comm]
  rw [firstCandidate?, candidates, List.find?_map, candidateDigits?]
  rfl

private theorem numEq_candidate (finite : rank < single.infinity) (negative : Bool) :
    ((candidate digits (signed negative rank finite.le)).convert .single).numEq
      (signed negative rank finite.le) = true ↔
        read (nearest (single.units rank) single.unitsPerOne digits) = rank := by
  rw [candidate, if_neg finite.ne, convert_ofDecimal_eq]
  simp [numEq, read]

private theorem read_eq_zero {d : Decimal} (small : d.coefficient < 10 ^ 0) : read d = 0 := by
  have zero : d.ratio.1 = 0 := by
    simp [Decimal.ratio, scaleByTen, Nat.lt_one_iff.mp small, apply_ite]
  have units : single.units 0 = 0 := by decide
  apply narrowRank_eq d.ratio_pos (by decide)
  rw [zero, units, Nat.zero_mul, Nat.zero_mul]

private theorem exists_candidateDigits (rank_pos : 0 < rank) (finite : rank < single.infinity)
    (negative : Bool) :
    ∃ fewer < 9, candidateDigits? (signed negative rank finite.le) = some (fewer + 1) ∧
      read (nearest (single.units rank) single.unitsPerOne (fewer + 1)) = rank ∧
      ∀ digits < fewer,
        read (nearest (single.units rank) single.unitsPerOne (digits + 1)) ≠ rank := by
  have nine : read (nearest (single.units rank) single.unitsPerOne 9) = rank := by
    have rounded := convert_nearest_nine rank_pos finite false
    rw [convert_ofDecimal_eq] at rounded
    exact (signed.inj rounded).2
  obtain ⟨digits, found⟩ :
      ∃ digits, candidateDigits? (signed negative rank finite.le) = some digits := by
    rw [← Option.isSome_iff_exists, candidateDigits?, List.find?_isSome]
    exact ⟨9, List.mem_range'_1.mpr (by decide), (numEq_candidate finite negative).mpr nine⟩
  obtain ⟨reads, inside, before⟩ := List.find?_range'_eq_some.mp found
  obtain ⟨least, bound⟩ := List.mem_range'_1.mp inside
  obtain ⟨fewer, rfl⟩ : ∃ fewer, digits = fewer + 1 := ⟨digits - 1, by omega⟩
  refine ⟨fewer, by omega, found, (numEq_candidate finite negative).mp reads, ?_⟩
  intro digits less same
  have refused := before (digits + 1) (by omega) (by omega)
  rw [(numEq_candidate finite negative).mpr same] at refused
  cases refused

private theorem missed_reads :
    ∀ rank ∈ missed, (∃ d : Decimal, d.coefficient < 10 ^ 8 ∧ read d = rank) ∧
    ∀ digits < 8, read (nearest (single.units rank) single.unitsPerOne (digits + 1)) ≠ rank := by
  have found : read ⟨12621775, -36⟩ = 0x0f800000 ∧ read ⟨15474251, 19⟩ = 0x6b000000 ∧
      read ⟨12379401, 20⟩ = 0x6c800000 := by decide +kernel
  have refused : ∀ rank ∈ missed, ∀ digits < 8,
      read (nearest (single.units rank) single.unitsPerOne (digits + 1)) ≠ rank := by
        decide +kernel
  intro rank inside
  refine ⟨?_, refused rank inside⟩
  simp only [missed, List.mem_cons, List.not_mem_nil, or_false] at inside
  obtain rfl | rfl | rfl := inside
  · exact ⟨_, by decide, found.1⟩
  · exact ⟨_, by decide, found.2.1⟩
  · exact ⟨_, by decide, found.2.2⟩

/-- A positive magnitude stands for the candidate of the fewest digits that reads back. That no
decimal of fewer digits reads back as it is true but for 2^-96, 2^87 and 2^90. -/
theorem exists_fewer_digits_iff (rank_pos : 0 < rank) (finite : rank < single.infinity)
    (negative : Bool) :
    let x : Single := signed negative rank finite.le
    ∃ fewer, x.candidateDigits? = some (fewer + 1) ∧ x.shortDouble = x.candidate (fewer + 1) ∧
      ((∃ (sign : Bool) (d : Decimal), d.coefficient < 10 ^ fewer ∧
        (ofDecimal sign d : Double).convert .single = x) ↔ rank ∈ missed) := by
  intro x
  obtain ⟨fewer, bound, found, first, refused⟩ := exists_candidateDigits rank_pos finite negative
  refine ⟨fewer, found, ?_, ?_⟩
  · rw [shortDouble_eq_getD, firstCandidate?_eq_map, found]
    rfl
  constructor
  · rintro ⟨sign, d, short, rounded⟩
    rw [convert_ofDecimal_eq] at rounded
    have reads : read d = rank := (signed.inj rounded).2
    by_contra tried
    cases fewer with
    | zero => exact rank_pos.ne (reads.symm.trans (read_eq_zero short)).symm
    | succ digits =>
      exact refused digits (Nat.lt_succ_self _)
        (nearest_reads rank_pos finite (by omega) (fun _ ↦ tried) short reads)
  · intro listed
    obtain ⟨⟨d, short, reads⟩, unread⟩ := missed_reads rank listed
    have many : 8 ≤ fewer := by
      by_contra less
      exact unread fewer (by omega) first
    refine ⟨negative, d, short.trans_le (Nat.pow_le_pow_right (by decide) many), ?_⟩
    rw [convert_ofDecimal_eq]
    simp only [x, ← reads, read]

/-- No decimal of seven digits is read as the largest finite single, which stands for one of
eight. -/
theorem exists_fewer_digits_iff_largest :
    0 < 0x7f7fffff ∧ 0x7f7fffff < single.infinity ∧
      candidateDigits? (signed false 0x7f7fffff (by decide)) = some 8 ∧
      ¬ ∃ (sign : Bool) (d : Decimal), d.coefficient < 10 ^ 7 ∧
        (ofDecimal sign d : Double).convert .single = signed false 0x7f7fffff (by decide) := by
  have eight : candidateDigits? (signed false 0x7f7fffff (by decide)) = some 8 := by decide +kernel
  obtain ⟨fewer, found, -, only⟩ :=
    exists_fewer_digits_iff (by decide : 0 < 0x7f7fffff) (by decide) false
  rw [eight] at found
  cases found
  exact ⟨by decide, by decide, eight, fun short ↦ absurd (only.mp short) (by decide)⟩

/-- 2^-96 stands for a decimal of nine digits, though one of eight digits reads back. -/
theorem shortDouble_longer :
    let x : Single := signed false 0x0f800000 (by decide)
    x.candidateDigits? = some 9 ∧ x.shortDouble = ofDecimal false ⟨126217745, -37⟩ ∧
      12621775 < 10 ^ 8 ∧ (ofDecimal false ⟨12621775, -36⟩ : Double).convert .single = x := by
  intro x
  have nine : x.candidateDigits? = some 9 := by decide +kernel
  have decimal : nearest (single.units 0x0f800000) single.unitsPerOne 9 = ⟨126217745, -37⟩ := by
    decide +kernel
  have rounded : read ⟨12621775, -36⟩ = 0x0f800000 := by decide +kernel
  refine ⟨nine, ?_, by decide, ?_⟩
  · rw [shortDouble_eq_getD, firstCandidate?_eq_map, nine, ← decimal]
    rfl
  · rw [convert_ofDecimal_eq]
    simp only [x, ← rounded, read]

end Manifest.Binary
