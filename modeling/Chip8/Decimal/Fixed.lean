import Chip8.Decimal.Binary

/-!
# Decimals with a fixed number of places

A number is rounded to a given number of places, exact ties to the even
neighbour, and written with all of them. A negative number that rounds to zero
keeps its sign.
-/

namespace Chip8.Decimal

/-- The number `n / 10 ^ places`, written with a point before the last `places`
    digits and at least one digit in front of it. -/
def pointed (n places : Nat) : String :=
  let digits := Nat.toDigits 10 n
  let digits := List.replicate (places + 1 - digits.length) '0' ++ digits
  let whole := digits.length - places
  String.ofList (digits.take whole) ++
    (if places = 0 then "" else "." ++ String.ofList (digits.drop whole))

/-- The sign in front of a number. -/
def sign (negative : Bool) : String :=
  if negative then "-" else ""

/-- A floating point number with the given number of places. -/
def fixed (places : Nat) (f : Float) : String :=
  match Reading.ofFloat f with
  | .finite negative b => sign negative ++ pointed (b.scaled places) places
  | .infinite negative => sign negative ++ "inf"
  | .nan => "nan"

end Chip8.Decimal
