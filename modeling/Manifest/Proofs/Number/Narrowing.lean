import Manifest.Number.Notation
import Manifest.Proofs.Number.Fraction

/-!
# Singles and the doubles that stand for them

A single is projected as the double nearest to a short decimal, or as the same number where no
short decimal reads back. In either case the single is what that double is rounded to
(`Binary.convert_shortDouble`).

A decimal is rounded to a double and then to a single. Both roundings are monotone, so that a
decimal of 2^31 or more does not come out below 2^31, nor one of less than a ten thousandth above
the greatest single that is less (`Binary.convert_ofDecimal_bounds`).
-/

namespace Manifest.Binary

/-- A single is among the doubles. -/
theorem convert_convert (x : Single) : (x.convert .double).convert .single = x := by
  cases x with
  | nan => rfl
  | signed negative rank le =>
    by_cases infinity : rank = Format.single.infinity
    · subst infinity
      change (convert .double (infinite negative : Single)).convert .single = infinite negative
      rw [convert_infinite, convert_infinite]
    · obtain ⟨wide, below, equal⟩ := exists_wide (Nat.lt_of_le_of_ne le infinity)
      have first : Format.double.nearestRank (Format.single.units rank) Format.single.unitsPerOne =
          wide :=
        Format.nearestRank_eq (Format.unitsPerOne_pos _) below.le equal.symm
      have second :
          Format.single.nearestRank (Format.double.units wide) Format.double.unitsPerOne =
          rank := Format.nearestRank_eq (Format.unitsPerOne_pos _) le equal
      rw [convert, if_neg infinity, convert_ofRatio _ (first ▸ below), first]
      simp only [ofRatio, second]

/-- A decimal with a sign is rounded to a magnitude with that sign. The magnitude is 2^31 at least
if the decimal is, and less than a ten thousandth if the decimal is. -/
theorem convert_ofDecimal_bounds (d : Decimal) :
    ∃ rank, ∃ le : rank ≤ Format.single.infinity,
      (∀ negative, (ofDecimal negative d : Double).convert .single = .signed negative rank le) ∧
      (2 ^ 31 * d.ratio.2 ≤ d.ratio.1 → 0x4f000000 ≤ rank) ∧
      (d.ratio.1 * 10 ^ 4 ≤ d.ratio.2 → rank ≤ 0x38d1b717) := by
  have pos := d.ratio_pos
  refine ⟨_, narrowRank_le d.ratio.1 d.ratio.2, fun negative ↦ convert_ofDecimal_eq negative d,
    fun great ↦ ?_, fun small ↦ ?_⟩
  · rw [← narrowRank_greatest]
    exact narrowRank_mono Nat.one_pos pos (by rwa [Nat.mul_one])
  · have least : narrowRank 1 (10 ^ 4) = 0x38d1b717 := by decide +kernel
    rw [← least]
    exact narrowRank_mono pos (by decide) (by rwa [Nat.one_mul])

/-- A single is what the double that stands for it is rounded to. -/
theorem convert_shortDouble (x : Single) : x.shortDouble.convert .single = x := by
  cases x with
  | nan => rfl
  | signed negative rank le =>
    unfold shortDouble
    dsimp only
    split
    · exact convert_convert _
    · cases found : shortDecimal? rank with
      | none => exact convert_convert (signed negative rank le)
      | some d =>
        obtain ⟨other, other_le, rounded, -⟩ := convert_ofDecimal_bounds d
        have readsBack := List.find?_some found
        rw [rounded false] at readsBack
        obtain rfl : other = rank := beq_iff_eq.mp readsBack
        exact rounded negative

/-- The double that stands for a finite single is finite and has its sign. -/
theorem exists_shortDouble_eq (negative : Bool) {rank : Nat} (le : rank ≤ Format.single.infinity)
    (finite : rank ≠ Format.single.infinity) :
    ∃ (wide : Nat) (wide_le : wide ≤ Format.double.infinity), wide ≠ Format.double.infinity ∧
      shortDouble (.signed negative rank le) = .signed negative wide wide_le := by
  have rounded := convert_shortDouble (.signed negative rank le)
  cases double : shortDouble (.signed negative rank le) with
  | nan =>
    rw [double] at rounded
    cases rounded
  | signed sign wide wide_le =>
    rw [double, convert] at rounded
    split at rounded
    · cases rounded
      exact absurd rfl finite
    · next other =>
      obtain rfl : sign = negative := (Binary.signed.inj rounded).1
      exact ⟨wide, wide_le, other, rfl⟩

end Manifest.Binary
