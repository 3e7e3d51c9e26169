import Chip8.Decimal.Fixed

/-!
# Shortest decimals

A floating point number is written with the fewest digits that read back as the
same number, and with the nearest of those decimals to it. The decimals that
read back are those between the midpoints to the two neighbouring floating
point numbers; the midpoints themselves read back if the mantissa is even.
-/

namespace Chip8.Decimal

/-- The decimal `digits * 10 ^ exponent`. -/
structure Tenfold where
  /-- The digits, as one number. -/
  digits : Nat
  /-- The power of ten. -/
  exponent : Int
deriving DecidableEq, Repr

namespace Tenfold

/-- The numerator over `denominator`. -/
def numerator (d : Tenfold) : Nat :=
  d.digits * Nat.pow 10 d.exponent.toNat

/-- The least power of ten that makes the decimal a fraction. -/
def denominator (d : Tenfold) : Nat :=
  Nat.pow 10 (-d.exponent).toNat

end Tenfold

namespace Binary

/-- The midpoint to the next smaller floating point number. The gap below a
    power of two is half as wide, unless it is the narrowest gap of all. -/
def lower (b : Binary) : Binary :=
  if b.mantissa = Nat.pow 2 52 ∧ -1074 < b.exponent then ⟨4 * b.mantissa - 1, b.exponent - 2⟩
  else ⟨4 * b.mantissa - 2, b.exponent - 2⟩

/-- The midpoint to the next greater floating point number. -/
def upper (b : Binary) : Binary :=
  ⟨4 * b.mantissa + 2, b.exponent - 2⟩

/-- Whether `b` is below the decimal `d`, or equal to it where that is allowed. -/
def below (b : Binary) (orEqual : Bool) (d : Tenfold) : Bool :=
  let x := b.numerator * d.denominator
  let y := d.numerator * b.denominator
  x < y || (orEqual && x = y)

/-- Whether `b` is above the decimal `d`, or equal to it where that is allowed. -/
def above (b : Binary) (orEqual : Bool) (d : Tenfold) : Bool :=
  let x := b.numerator * d.denominator
  let y := d.numerator * b.denominator
  y < x || (orEqual && x = y)

/-- Whether the decimal `d` reads back as `b`. -/
def isReadFrom (b : Binary) (d : Tenfold) : Bool :=
  let even : Bool := b.mantissa % 2 = 0
  b.lower.below even d && b.upper.above even d

/-- The exponent `e` with `10 ^ (e - 1) ≤ b < 10 ^ e`, for `b` other than zero. -/
def magnitude (b : Binary) : Int :=
  let shift := (-b.exponent).toNat
  (Nat.toDigits 10 (b.numerator * Nat.pow 10 shift / b.denominator)).length - shift

/-- The distance from the decimal `d`, times a number that depends only on the
    exponents of `b` and `d`. -/
def distance (b : Binary) (d : Tenfold) : Nat :=
  let x := b.numerator * d.denominator
  let y := d.numerator * b.denominator
  (x - y) + (y - x)

/-- The decimal with `n` digits that reads back as `b` and is nearest to it, if
    one reads back. It is one of the two neighbours of `b` among them. -/
def withDigits? (b : Binary) (n : Nat) : Option Tenfold :=
  let e := b.magnitude - n
  let unit : Tenfold := ⟨1, e⟩
  let q := b.numerator * unit.denominator / (b.denominator * unit.numerator)
  let low : Tenfold := ⟨q, e⟩
  let high : Tenfold := ⟨q + 1, e⟩
  match b.isReadFrom low, b.isReadFrom high with
  | true, true =>
    let dl := b.distance low
    let dh := b.distance high
    some (if dl < dh ∨ (dl = dh ∧ q % 2 = 0) then low else high)
  | true, false => some low
  | false, true => some high
  | false, false => none

/-- The shortest decimal that reads back as `b`. Seventeen digits always do. -/
def shortest (b : Binary) : Tenfold :=
  if b.mantissa = 0 then ⟨0, 0⟩
  else ((List.range 17).findSome? fun n => b.withDigits? (n + 1)).getD ⟨0, 0⟩

end Binary

/-! ### Layout -/

/-- Digits without the zeros at their end, at least one. -/
def significant (digits : List Char) : List Char :=
  match (digits.reverse.dropWhile (· = '0')).reverse with
  | [] => ['0']
  | l => l

/-- A decimal with a point, whose first digit stands for `10 ^ e`. From `1e-4`
    to below `1e16` the places are written out; otherwise the first digit stands
    alone before the point and a signed exponent of two digits follows. -/
def layOut (digits : List Char) (e : Int) : String :=
  if -4 ≤ e ∧ e < 0 then
    "0." ++ String.ofList (List.replicate (-e - 1).toNat '0' ++ digits)
  else if 0 ≤ e ∧ e < 16 then
    let whole := e.toNat + 1
    let padded := digits ++ List.replicate (whole + 1 - digits.length) '0'
    String.ofList (padded.take whole) ++ "." ++ String.ofList (padded.drop whole)
  else
    let mantissa :=
      match digits with
      | [] => "0"
      | [d] => String.ofList [d]
      | d :: r => String.ofList (d :: '.' :: r)
    let power := Nat.toDigits 10 e.natAbs
    mantissa ++ (if e < 0 then "e-" else "e+") ++
      String.ofList (List.replicate (2 - power.length) '0' ++ power)

/-- The decimal text of a finite number other than zero or of zero. -/
def Tenfold.text (d : Tenfold) : String :=
  let digits := Nat.toDigits 10 d.digits
  if d.digits = 0 then "0.0"
  else layOut (significant digits) (d.exponent + digits.length - 1)

/-- The shortest text of a floating point number. -/
def shortest (f : Float) : String :=
  match Reading.ofFloat f with
  | .finite negative b => sign negative ++ b.shortest.text
  | .infinite negative => sign negative ++ "inf"
  | .nan => "nan"

end Chip8.Decimal
