/-!
# Listings

The written form of a list of names, in brackets and single quotes, and of a
tuple of numbers, in parentheses. A tuple of one number has a comma after it.
-/

namespace Chip8.Text

/-- A name between single quotes. -/
def quoted (s : String) : String :=
  "'" ++ s ++ "'"

/-- A list of names, as in `['a', 'b']`. -/
def listing (l : List String) : String :=
  "[" ++ ", ".intercalate (l.map quoted) ++ "]"

/-- A tuple of numbers, as in `(3, 4)` and `(3,)`. -/
def tuple : List Int → String
  | [n] => "(" ++ toString n ++ ",)"
  | l => "(" ++ ", ".intercalate (l.map toString) ++ ")"

end Chip8.Text
