/-
  Gherkin.Decimal
  ───────────────
  **NUMBERS WITH A DECIMAL POINT.**

  A `Decimal` is what was written: a sign, a coefficient and a power of ten.
  It is used as the nearest binary number with a 53-bit significand, so
  `whole?` — the integer it stands for, if it has no fractional part — first
  rounds to that precision (`nearestBinary`, ties to the even neighbour).
  `text` writes the number: positional for exponents from −4 to 15, with an
  exponent of at least two digits otherwise.

  Only `whole?` rounds; `sameValue` and `text` take the digits as they were
  written.  These are the shortest digits of the nearest binary number as well
  if there are at most 15 of them and the number is in the range where all 53
  bits are used.
-/

namespace Gherkin

/-- A signed coefficient times a power of ten. -/
structure Decimal where
  negative : Bool
  coefficient : Nat
  exponent : Int
  deriving DecidableEq

namespace Decimal

/-! ## §1. The nearest binary number. -/

/-- The quotient rounded to an integer; a tie goes to the even neighbour. -/
def roundQuotient (num den : Nat) : Nat :=
  let q := num / den
  let r := num % den
  if 2 * r < den then q else if den < 2 * r then q + 1 else q + q % 2

/-- The exponent of two that leaves the quotient a significand of 53 bits, or the least one. -/
def binaryExponent (num den : Nat) : Int :=
  let k : Int := (num.log2 : Int) - den.log2 - 53
  let q := if 0 ≤ k then num / (den * Nat.pow 2 k.toNat) else num * Nat.pow 2 (-k).toNat / den
  max (if q < Nat.pow 2 53 then k else k + 1) (-1074)

/-- The quotient as a significand of at most 53 bits and an exponent of two. -/
def nearestBinary (num den : Nat) : Nat × Int :=
  let k := binaryExponent num den
  if 0 ≤ k then (roundQuotient num (den * Nat.pow 2 k.toNat), k)
  else (roundQuotient (num * Nat.pow 2 (-k).toNat) den, k)

/-- The magnitude as a fraction. -/
def fraction (d : Decimal) : Nat × Nat :=
  if 0 ≤ d.exponent then (d.coefficient * Nat.pow 10 d.exponent.toNat, 1)
  else (d.coefficient, Nat.pow 10 (-d.exponent).toNat)

/-- The magnitude, if the number has no fractional part. -/
def wholeMagnitude? (d : Decimal) : Option Nat :=
  let (m, k) := nearestBinary d.fraction.1 d.fraction.2
  if 0 ≤ k then some (m * Nat.pow 2 k.toNat)
  else if m % Nat.pow 2 (-k).toNat = 0 then some (m / Nat.pow 2 (-k).toNat) else none

/-- The integer that the number equals, if it has no fractional part. -/
def whole? (d : Decimal) : Option Int :=
  d.wholeMagnitude?.map fun n => if d.negative then -Int.ofNat n else Int.ofNat n

/-! ## §2. Comparison. -/

/-- An integer as a decimal. -/
def ofInt (n : Int) : Decimal := ⟨n < 0, n.natAbs, 0⟩

/-- Whether two decimals have the same value; the two zeros do. -/
def sameValue (a b : Decimal) : Bool :=
  (a.fraction.1 * b.fraction.2 == b.fraction.1 * a.fraction.2) &&
    (a.negative == b.negative || a.coefficient == 0)

/-! ## §3. Text. -/

/-- The significant digits, and the place of the point counted from before the first of them. -/
def significant (d : Decimal) : List Char × Int :=
  let digits := (toString d.coefficient).toList
  let kept := (digits.reverse.dropWhile (· == '0')).reverse
  if kept.isEmpty then (['0'], 1) else (kept, digits.length + d.exponent)

/-- Digits with the point at the given place, and at least one digit on either side of it. -/
def positional (digits : List Char) (place : Int) : List Char :=
  if place ≤ 0 then '0' :: '.' :: List.replicate (-place).toNat '0' ++ digits
  else
    let n := place.toNat
    if digits.length ≤ n then digits ++ List.replicate (n - digits.length) '0' ++ ['.', '0']
    else digits.take n ++ '.' :: digits.drop n

/-- Digits with a point after the first one, and an exponent with a sign and two digits or more. -/
def scientific (digits : List Char) (place : Int) : List Char :=
  let e := place - 1
  let size := (toString e.natAbs).toList
  let tail := digits.drop 1
  digits.take 1 ++ (if tail.isEmpty then [] else '.' :: tail) ++
    ['e', if e < 0 then '-' else '+'] ++ List.replicate (2 - size.length) '0' ++ size

/-- The number as a text: positional where the leading digit is worth 10⁻⁴ to 10¹⁵.  All significant
digits are kept, so a number that was written with more digits than it needs is not shortened. -/
def text (d : Decimal) : String :=
  let (digits, place) := d.significant
  let body := if -4 < place ∧ place ≤ 16 then positional digits place else scientific digits place
  String.ofList (if d.negative then '-' :: body else body)

end Decimal

end Gherkin
