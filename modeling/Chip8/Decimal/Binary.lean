/-!
# Floating point numbers as exact fractions

A finite floating point number is a natural number times a power of two, with
a sign. This module reads that off the bits and rounds such numbers to whole
ones, so that everything written in decimal is computed exactly.
-/

namespace Chip8.Decimal

/-- The number `mantissa * 2 ^ exponent`. -/
structure Binary where
  /-- The factor. -/
  mantissa : Nat
  /-- The power of two. -/
  exponent : Int
deriving DecidableEq, Repr

/-- What a floating point number stands for. -/
inductive Reading where
  /-- A number, with its sign kept apart, so that there are two zeros. -/
  | finite (negative : Bool) (value : Binary)
  /-- An infinity. -/
  | infinite (negative : Bool)
  /-- No number. -/
  | nan
deriving DecidableEq, Repr

/-- Reads a floating point number. -/
def Reading.ofFloat (f : Float) : Reading :=
  let bits : Nat := f.toBits.toNat
  let negative := bits / Nat.pow 2 63 % 2 == 1
  let exponent : Nat := bits / Nat.pow 2 52 % Nat.pow 2 11
  let fraction : Nat := bits % Nat.pow 2 52
  if exponent = 2047 then
    if fraction = 0 then .infinite negative else .nan
  else if exponent = 0 then .finite negative ⟨fraction, -1074⟩
  else .finite negative ⟨Nat.pow 2 52 + fraction, (exponent : Int) - 1075⟩

/-- The quotient of two natural numbers, rounded to the nearest whole number,
    and to the even one of two that are equally near. -/
def roundQuotient (a b : Nat) : Nat :=
  let q := a / b
  let r := a % b
  if 2 * r < b then q
  else if b < 2 * r then q + 1
  else q + q % 2

namespace Binary

/-- The numerator over `denominator`. -/
def numerator (b : Binary) : Nat :=
  b.mantissa * Nat.pow 2 b.exponent.toNat

/-- The least power of two that makes the number a fraction. -/
def denominator (b : Binary) : Nat :=
  Nat.pow 2 (-b.exponent).toNat

/-- The nearest whole number to `b * 10 ^ places`, and the even one of two. -/
def scaled (b : Binary) (places : Nat) : Nat :=
  roundQuotient (b.numerator * Nat.pow 10 places) b.denominator

/-- The whole part. -/
def floor (b : Binary) : Nat :=
  b.numerator / b.denominator

end Binary

namespace Reading

/-- A whole number with the given sign. -/
def signed (negative : Bool) (n : Nat) : Int :=
  if negative then -n else n

/-- The nearest whole number, and the even one of two; nothing if there is none. -/
def round? : Reading → Option Int
  | finite negative b => some (signed negative (b.scaled 0))
  | _ => none

/-- The whole number next to it on the side of zero; nothing if there is none. -/
def truncate? : Reading → Option Int
  | finite negative b => some (signed negative b.floor)
  | _ => none

end Reading

end Chip8.Decimal
