import Manifest.Number.Decimal

/-!
# Writing floating point numbers

A finite number is written from its decimal digits, either positionally or with an exponent. A
`Layout` says which exponents are written positionally and whether a whole number keeps a
fraction. Two layouts are in use: `plain` writes every digit needed to read the number back, and
`general` writes six significant digits at most.
-/

namespace Manifest

/-- How a finite decimal number is laid out. -/
structure Layout where
  /-- The least exponent of the leading digit that is written positionally. -/
  least : Int
  /-- The first exponent of the leading digit that is written with an exponent part. -/
  limit : Int
  /-- Whole numbers written positionally end in `.0`. -/
  keepPoint : Bool

namespace Layout

/-- Exponents from -4 to 15 are positional, and a whole number ends in `.0`. -/
def plain : Layout := ⟨-4, 16, true⟩

/-- Exponents from -4 to 5 are positional, and a whole number has no point. -/
def general : Layout := ⟨-4, 6, false⟩

/-- An exponent part: a sign and at least two digits. -/
def exponentPart (exponent : Int) : List Char :=
  let digits := Numeral.ofNat exponent.natAbs
  let padded := if digits.length < 2 then '0' :: digits else digits
  'e' :: (if exponent < 0 then '-' else '+') :: padded

/-- Digits with the point after the given number of places. -/
def positional (layout : Layout) (digits : List Char) (point : Int) : List Char :=
  if point ≤ 0 then '0' :: '.' :: (List.replicate (-point).toNat '0' ++ digits)
  else if (digits.length : Int) ≤ point then
    digits ++ List.replicate (point.toNat - digits.length) '0' ++
      (if layout.keepPoint then ['.', '0'] else [])
  else digits.take point.toNat ++ '.' :: digits.drop point.toNat

/-- Digits with the point after the first and an exponent part. -/
def scientific (digits : List Char) (exponent : Int) : List Char :=
  match digits with
  | [] => exponentPart exponent
  | [d] => d :: exponentPart exponent
  | d :: rest => d :: '.' :: (rest ++ exponentPart exponent)

/-- The text of a decimal, without its trailing zeros. -/
def writeDecimal (layout : Layout) (d : Decimal) : List Char :=
  let all := Numeral.ofNat d.coefficient
  let digits := (all.reverse.dropWhile (· == '0')).reverse
  if digits.isEmpty then positional layout ['0'] 1
  else
    let point : Int := all.length + d.exponent
    if layout.least ≤ point - 1 ∧ point - 1 < layout.limit then positional layout digits point
    else scientific digits (point - 1)

/-- The text of a number whose finite magnitudes are given by decimals. -/
def write {f : Format} (layout : Layout) (decimalOf : Nat → Decimal) : Binary f → List Char
  | .nan => "nan".toList
  | .signed negative rank _ =>
    (if negative then ['-'] else []) ++
      if rank = f.infinity then "inf".toList
      else if rank = 0 then layout.writeDecimal ⟨0, 0⟩
      else layout.writeDecimal (decimalOf rank)

end Layout

namespace Binary

variable {f : Format}

/-- The shortest text that reads back as the number. -/
def text (x : Binary f) : List Char := Layout.plain.write (shortest (f := f)) x

/-- The number to six significant digits. -/
def generalText (x : Binary f) : List Char :=
  Layout.general.write (fun rank ↦ Decimal.nearest (f.units rank) f.unitsPerOne 6) x

/-- The first of the nearest decimals of one to nine digits that reads back as the finite positive
single precision magnitude of a rank, by way of the nearest double. -/
def shortDecimal? (rank : Nat) : Option Decimal :=
  let readsBack (d : Decimal) : Bool :=
    match (ofDecimal false d : Double).convert .single with
    | nan => false
    | signed _ other _ => other == rank
  ((List.range 9).map fun i ↦
    Decimal.nearest (Format.single.units rank) Format.single.unitsPerOne (i + 1)).find? readsBack

/-- The double that stands for a single precision number: the one nearest to its short decimal.
Zeros, infinities and not a number, which have none, stand for themselves. -/
def shortDouble (x : Single) : Double :=
  let wide := x.convert .double
  match x with
  | nan => wide
  | signed negative rank _ =>
    if rank = Format.single.infinity ∨ rank = 0 then wide
    else ((shortDecimal? rank).map (ofDecimal negative)).getD wide

end Binary
end Manifest
