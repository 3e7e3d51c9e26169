/-!
# Numerals

Hexadecimal numerals with leading zeros, decimal numerals with the thousands
set apart, and text brought to a least width with blanks on the left.
-/

namespace Chip8.Text

/-- The characters `l` with enough copies of `c` in front to make `width` of them. -/
def padLeft (width : Nat) (c : Char) (l : List Char) : List Char :=
  List.replicate (width - l.length) c ++ l

/-- The number `n` in upper case hexadecimal digits, at least `width` of them. -/
def hexadecimal (width n : Nat) : String :=
  .ofList (padLeft width '0' ((Nat.toDigits 16 n).map Char.toUpper))

/-- Digits, given from the last to the first, with a comma after each three
    unless no digit follows. The result is in reading order. -/
def groupThrees : List Char → List Char → List Char
  | a :: b :: c :: d :: r, acc => groupThrees (d :: r) (',' :: c :: b :: a :: acc)
  | r, acc => r.reverse ++ acc

/-- The number `n` in decimal digits with a comma between each group of three. -/
def grouped (n : Nat) : String :=
  .ofList (groupThrees (Nat.toDigits 10 n).reverse [])

/-- Text brought to at least `width` characters by blanks on the left. -/
def alignRight (width : Nat) (s : String) : String :=
  .ofList (padLeft width ' ' s.toList)

end Chip8.Text
