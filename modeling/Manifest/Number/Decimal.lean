import Manifest.Number.Binary
import Manifest.Number.Numeral

/-!
# Decimals

A decimal is a whole coefficient times a power of ten. Two questions join decimals and binary
numbers. Which binary number is nearest to a decimal (`Binary.ofDecimal`), and which decimals stand
for a binary number: the nearest one of a given number of digits (`Decimal.nearest`), and one of
the fewest digits that still reads back (`Binary.shortest`). Everything is exact arithmetic on
natural numbers.
-/

namespace Manifest

/-- The number `coefficient * 10 ^ exponent`. -/
structure Decimal where
  coefficient : Nat
  exponent : Int
deriving DecidableEq, Repr

/-- The quotient `num / den` times a power of ten, as a quotient. -/
def scaleByTen (num den : Nat) (power : Int) : Nat × Nat :=
  if 0 ≤ power then (num * Nat.pow 10 power.toNat, den)
  else (num, den * Nat.pow 10 (-power).toNat)

/-- The exponent of the leading decimal digit of a positive quotient. -/
def leadingExponent (num den : Nat) : Int :=
  if den ≤ num then (Numeral.width (num / den) : Int) - 1
  else -(Numeral.width ((den + num - 1) / num - 1) : Int)

namespace Decimal

/-- A decimal as a quotient of natural numbers. -/
def ratio (d : Decimal) : Nat × Nat := scaleByTen d.coefficient 1 d.exponent

/-- The exponent of the position after the leading digit. -/
def magnitude (d : Decimal) : Int := Numeral.width d.coefficient + d.exponent

/-- The power of ten that brings a positive quotient to `digits` digits before the point. -/
def gridPower (num den digits : Nat) : Int := (digits : Int) - 1 - leadingExponent num den

/-- The decimal of the given number of significant digits nearest to a positive quotient, a tie to
the even coefficient. -/
def nearest (num den digits : Nat) : Decimal :=
  let power := gridPower num den digits
  let (scaledNum, scaledDen) := scaleByTen num den power
  ⟨roundHalfEven scaledNum scaledDen, -power⟩

/-- The two decimals of the given number of significant digits around a positive quotient, the
nearer one first, and of two equally near ones the even one. -/
def neighbours (num den digits : Nat) : List Decimal :=
  let power := gridPower num den digits
  let (scaledNum, scaledDen) := scaleByTen num den power
  let below := scaledNum / scaledDen
  if roundHalfEven scaledNum scaledDen = below then [⟨below, -power⟩, ⟨below + 1, -power⟩]
  else [⟨below + 1, -power⟩, ⟨below, -power⟩]

end Decimal

namespace Binary

variable {f : Format}

/-- The value nearest to a decimal. A decimal beyond the reach of the format by its magnitude alone
is decided without computing the power of ten. -/
def ofDecimal (negative : Bool) (d : Decimal) : Binary f :=
  if d.coefficient = 0 ∨ d.magnitude < -(f.scale : Int) then zero negative
  else if (f.scale : Int) + 1 < d.magnitude then infinite negative
  else ofRatio negative d.ratio.1 d.ratio.2

/-- The exact decimal expansion of a finite magnitude. -/
def expansion (rank : Nat) : Decimal :=
  ⟨f.units rank * Nat.pow 5 f.scale, -(f.scale : Int)⟩

/-- A decimal of the fewest digits, and nearest among those, that reads back as the finite positive
magnitude of a rank. Seventeen digits suffice for double precision; past them the exact expansion
stands in. -/
def shortest (rank : Nat) : Decimal :=
  let readsBack (d : Decimal) : Bool :=
    match (ofDecimal false d : Binary f) with
    | nan => false
    | signed _ other _ => other == rank
  let candidates := (List.range 17).findSome? fun i ↦
    (Decimal.neighbours (f.units rank) f.unitsPerOne (i + 1)).find? readsBack
  candidates.getD (expansion (f := f) rank)

end Binary
end Manifest
