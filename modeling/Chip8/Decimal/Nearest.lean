import Chip8.Decimal.Binary

/-!
# The nearest floating point number

A fraction is rounded to the nearest floating point number, and to the one with
the even mantissa of two that are equally near. The numbers are taken in units
of a power of two, `2 ^ e`, so chosen that the mantissa has 53 bits, unless the
unit is the least there is. The codes of the positive numbers follow each other
in the order of the numbers, so a mantissa that is rounded up to 54 bits gives
the code of the next power of two.
-/

namespace Chip8.Decimal

/-- The fraction `a / b` in units of `2 ^ e`, as a numerator and a denominator. -/
def inUnits (a b : Nat) (e : Int) : Nat × Nat :=
  (a * Nat.pow 2 (-e).toNat, b * Nat.pow 2 e.toNat)

/-- The exponent of the unit in which `a / b` is rounded. -/
def unitExponent (a b : Nat) : Int :=
  let e := (a.log2 : Int) - b.log2 - 52
  let (n, d) := inUnits a b e
  max (-1074) (if n < Nat.pow 2 52 * d then e - 1 else e)

/-- The code of the positive floating point number nearest to `a / b`, if no
    bound were set to the exponent. -/
def nearestCode (a b : Nat) : Nat :=
  let e := unitExponent a b
  let (n, d) := inUnits a b e
  match roundQuotient n d with
  | 0 => 0
  | m => m + (e + 1074).toNat * Nat.pow 2 52

/-- The floating point number nearest to `a / b`, with the given sign, unless it
    is too large for one. -/
def nearest? (negative : Bool) (a b : Nat) : Option Float :=
  let code := nearestCode a b
  if code < 2047 * Nat.pow 2 52 then
    some (.ofBits (.ofNat (code + if negative then Nat.pow 2 63 else 0)))
  else none

example : nearest? false 1 10 = some 0.1 ∧ nearest? true 0 3 = some (-0.0) ∧
    nearest? false (2 ^ 1024 - 2 ^ 970) 1 = none := by decide +kernel

end Chip8.Decimal
