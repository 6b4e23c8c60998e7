/-!
# Binary floating point numbers

A magnitude of a binary format is known by its rank: zero has rank 0, and each rank after it is
the next larger magnitude, up to infinity. The rank of a finite magnitude fixes it as a count of
least units (`Format.units`), so comparisons and roundings are exact arithmetic on natural numbers.
The rank is also the bit pattern of the magnitude in the interchange encoding.

`Binary.ofRatio` rounds a quotient to the nearest value, a tie to the even rank, and what exceeds
the largest finite value by half a unit or more to infinity.
-/

namespace Manifest

/-- A binary interchange format. -/
structure Format where
  /-- Bits of the significand that are stored. -/
  fractionBits : Nat
  /-- The least positive value is two to the power of minus `scale`. -/
  scale : Nat
  /-- The rank of infinity, which is the number of finite magnitudes. -/
  infinity : Nat
deriving DecidableEq, Repr

/-- Single precision. -/
def Format.single : Format := ⟨23, 149, 0x7f800000⟩

/-- Double precision. -/
def Format.double : Format := ⟨52, 1074, 0x7ff0000000000000⟩

/-- The finite magnitude of a rank, counted in least units. -/
def Format.units (f : Format) (rank : Nat) : Nat :=
  let step := Nat.pow 2 f.fractionBits
  if rank < step then rank else (rank % step + step) * Nat.pow 2 (rank / step - 1)

/-- The number of least units in one. -/
def Format.unitsPerOne (f : Format) : Nat := Nat.pow 2 f.scale

/-- The quotient rounded to the nearest whole number, a tie to the even one. -/
def roundHalfEven (num den : Nat) : Nat :=
  let quotient := num / den
  let twice := 2 * (num % den)
  if twice < den then quotient
  else if den < twice then quotient + 1
  else if quotient % 2 = 0 then quotient else quotient + 1

/-- The rank of the magnitude nearest to a quotient. In the binade that holds the quotient, ranks
count units of that binade; a round up out of it lands on the first rank of the next. -/
def Format.nearestRank (f : Format) (num den : Nat) : Nat :=
  let scaled := num * f.unitsPerOne
  let binade := (scaled / den).log2 - f.fractionBits
  min (binade * Nat.pow 2 f.fractionBits + roundHalfEven scaled (den * Nat.pow 2 binade))
    f.infinity

/-- A value of a binary format: not a number, or a sign and the rank of a magnitude. -/
inductive Binary (f : Format)
  | nan
  | signed (negative : Bool) (rank : Nat) (rank_le : rank ≤ f.infinity)
deriving DecidableEq, Repr

/-- Single precision numbers. -/
abbrev Single := Binary .single

/-- Double precision numbers. -/
abbrev Double := Binary .double

namespace Binary

variable {f : Format}

/-- Zero with a sign. -/
def zero (negative : Bool) : Binary f := .signed negative 0 (Nat.zero_le _)

/-- Infinity with a sign. -/
def infinite (negative : Bool) : Binary f := .signed negative f.infinity (Nat.le_refl _)

/-- The value nearest to a quotient, with a sign. -/
def ofRatio (negative : Bool) (num den : Nat) : Binary f :=
  .signed negative (f.nearestRank num den) (Nat.min_le_right _ _)

/-- The value nearest to an integer. -/
def ofInt (n : Int) : Binary f := ofRatio (n < 0) n.natAbs 1

/-- Round to another format. -/
def convert (g : Format) : Binary f → Binary g
  | nan => nan
  | signed negative rank _ =>
    if rank = f.infinity then infinite negative
    else ofRatio negative (f.units rank) f.unitsPerOne

/-- Numeric equality: not a number equals nothing, and the two zeros are equal. -/
def numEq : Binary f → Binary f → Bool
  | signed n a _, signed m b _ => a == b && (n == m || a == 0)
  | _, _ => false

/-- Neither infinite nor not a number. -/
def isFinite : Binary f → Bool
  | nan => false
  | signed _ rank _ => rank != f.infinity

/-- The whole number that a value is, if it is one. -/
def toInt? : Binary f → Option Int
  | nan => none
  | signed negative rank _ =>
    let units := f.units rank
    if rank = f.infinity ∨ units % f.unitsPerOne ≠ 0 then none
    else
      let whole : Int := units / f.unitsPerOne
      some (if negative then -whole else whole)

/-- Not a number differs from itself. -/
theorem numEq_nan (x : Binary f) : numEq nan x = false := by
  cases x <;> rfl

/-- A value other than not a number equals itself. -/
theorem numEq_self {x : Binary f} (h : x ≠ nan) : numEq x x = true := by
  cases x with
  | nan => exact absurd rfl h
  | signed negative rank _ => simp [numEq]

/-- Numeric equality is symmetric. -/
theorem numEq_comm (x y : Binary f) : numEq x y = numEq y x := by
  cases x with
  | nan => cases y <;> rfl
  | signed n a _ =>
    cases y with
    | nan => rfl
    | signed m b _ =>
      rw [numEq, numEq, BEq.comm (a := a), BEq.comm (a := n)]
      cases same : b == a with
      | false => rfl
      | true => rw [eq_of_beq same]

/-- Infinity stays infinite in every format. -/
theorem convert_infinite (g : Format) (negative : Bool) :
    convert g (infinite negative : Binary f) = infinite negative := by
  simp [convert, infinite]

end Binary
end Manifest
