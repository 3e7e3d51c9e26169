import Chip8.Decimal.Nearest
import Chip8.Decimal.Shortest

/-!
# Numbers

A number is whole, and then exact and of any size, or it is a floating point
number. Sums and products of whole numbers are whole. A quotient of whole
numbers is the floating point number nearest to it; in all other operations a
whole number is first taken to the nearest floating point number. What has no
floating point number, because it is too large, has no result.
-/

namespace Chip8

/-- A whole number or a floating point number. -/
inductive Number where
  /-- A whole number. -/
  | whole (n : Int)
  /-- A floating point number. -/
  | real (x : Float)
deriving DecidableEq, Repr

namespace Number

/-- Why an operation has no result. -/
inductive Failure where
  /-- It is too large. -/
  | tooLarge
  /-- It would be a quotient by zero. -/
  | zeroDivisor
  /-- It would be the whole part of what is no number. -/
  | notANumber
deriving DecidableEq, Repr

/-- A failure in words. -/
def Failure.message : Failure → String
  | tooLarge => "number too large"
  | zeroDivisor => "division by zero"
  | notANumber => "cannot convert float NaN to integer"

open Decimal (Reading)

/-- The floating point number next to a number. -/
def toFloat : Number → Except Failure Float
  | whole n =>
    match Decimal.nearest? (n < 0) n.natAbs 1 with
    | some x => .ok x
    | none => .error .tooLarge
  | real x => .ok x

/-- The result of an operation on two floating point numbers. -/
def viaFloat (op : Float → Float → Float) (a b : Number) : Except Failure Number := do
  let x ← a.toFloat
  let y ← b.toFloat
  return .real (op x y)

/-- The difference of two numbers. -/
def sub : Number → Number → Except Failure Number
  | whole m, whole n => .ok (.whole (m - n))
  | a, b => viaFloat (· - ·) a b

/-- The product of two numbers. -/
def mul : Number → Number → Except Failure Number
  | whole m, whole n => .ok (.whole (m * n))
  | a, b => viaFloat (· * ·) a b

/-- The quotient of two numbers. A quotient of whole numbers is negative zero if
    the numerator is zero and the denominator negative. -/
def div : Number → Number → Except Failure Float
  | whole m, whole n =>
    if n = 0 then .error .zeroDivisor
    else
      match Decimal.nearest? (decide (m < 0) ^^ decide (n < 0)) m.natAbs n.natAbs with
      | some x => .ok x
      | none => .error .tooLarge
  | a, b => do
    let x ← a.toFloat
    let y ← b.toFloat
    if y == 0 then .error .zeroDivisor else .ok (x / y)

/-- A whole number read off a floating point number. -/
def integer (read? : Reading → Option Int) (x : Float) : Except Failure Int :=
  let r := Reading.ofFloat x
  match read? r with
  | some n => .ok n
  | none => .error (if r = .nan then .notANumber else .tooLarge)

/-- The whole number nearest to a floating point number, and the even one of two. -/
def round (x : Float) : Except Failure Int :=
  integer Reading.round? x

/-- The whole number next to a number on the side of zero. -/
def truncate : Number → Except Failure Int
  | whole n => .ok n
  | real x => integer Reading.truncate? x

/-- Whether two numbers have the same value. -/
def same : Number → Number → Bool
  | whole m, whole n => m = n
  | real x, real y => x == y
  | whole n, real x | real x, whole n =>
    match Reading.ofFloat x with
    | .finite negative b => Reading.signed negative b.numerator = n * b.denominator
    | _ => false

/-- The text of a number: all digits of a whole number, and the shortest text of
    a floating point number, which always has a point or an exponent. -/
def text : Number → String
  | whole n => toString n
  | real x => Decimal.shortest x

example : ((whole 7).div (whole 2)).toOption = some 3.5 ∧
    ((whole 1).div (real 0.25)).toOption = some 4 ∧
    ((real 1).div (whole 0)).toOption = none := by decide +kernel

example : ((whole (2 ^ 53 + 1)).sub (whole (2 ^ 53))).toOption = some (whole 1) ∧
    ((whole (2 ^ 53 + 1)).sub (real 9007199254740992)).toOption = some (real 0) := by
  decide +kernel

end Number

end Chip8
