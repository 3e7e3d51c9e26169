import Chip8.Text.Listing

/-!
# Bitmaps

A bitmap of width `w` and height `h` says of each cell `(x, y)` whether it is
lit. Two bitmaps with the same lit cells are equal.
-/

namespace Chip8

/-- A rectangle of cells that are lit or not, column by column. -/
@[ext]
structure Bitmap (w h : Nat) where
  /-- The columns, each from top to bottom. -/
  columns : Vector (Vector Bool h) w
deriving DecidableEq

namespace Bitmap

variable {w h : Nat}

/-- Whether the cell in column `x` and row `y` is lit. -/
def get (b : Bitmap w h) (x : Fin w) (y : Fin h) : Bool :=
  b.columns[x][y]

/-- The bitmap whose cell `(x, y)` is `f x y`. -/
def ofFn (f : Fin w → Fin h → Bool) : Bitmap w h :=
  ⟨.ofFn fun x => .ofFn fun y => f x y⟩

/-- The bitmap with no lit cell. -/
def blank : Bitmap w h :=
  ofFn fun _ _ => false

/-- Whether some cell satisfies `p`. -/
def anyCell (p : Fin w → Fin h → Bool) : Bool :=
  (List.finRange w).any fun x => (List.finRange h).any fun y => p x y

/-- The cells row by row, from the left and from the top, as ones and zeros. -/
def toRowMajor (b : Bitmap w h) : List UInt8 :=
  (List.finRange h).flatMap fun y => (List.finRange w).map fun x =>
    if b.get x y then 1 else 0

/-- A bitmap of any size. -/
structure Sized where
  /-- The number of columns. -/
  width : Nat
  /-- The number of rows. -/
  height : Nat
  /-- The bitmap. -/
  bitmap : Bitmap width height

/-- The bitmap with the given columns, if they are equally long. -/
def ofColumns? (columns : List (List Bool)) : Option Sized :=
  let height := (columns.headD []).length
  let cells := (columns.map List.toArray).toArray
  if columns.all (·.length = height) then
    some ⟨columns.length, height, .ofFn fun x y => (cells.getD x #[]).getD y false⟩
  else none

/-- What is said of `n` columns that are not equally long. -/
def raggedMessage (n : Nat) : String :=
  "setting an array element with a sequence. The requested array has an inhomogeneous shape " ++
    "after 1 dimensions. The detected shape was " ++ Text.tuple [n] ++ " + inhomogeneous part."

@[simp, grind =]
theorem get_ofFn (f : Fin w → Fin h → Bool) (x : Fin w) (y : Fin h) :
    (ofFn f).get x y = f x y := by
  simp [get, ofFn]

@[simp, grind =]
theorem get_blank (x : Fin w) (y : Fin h) : (blank : Bitmap w h).get x y = false := by
  simp [blank]

theorem ext_get {b c : Bitmap w h} (hbc : ∀ x y, b.get x y = c.get x y) : b = c := by
  ext x hx y hy
  exact hbc ⟨x, hx⟩ ⟨y, hy⟩

@[simp]
theorem anyCell_eq_true {p : Fin w → Fin h → Bool} :
    anyCell p = true ↔ ∃ x y, p x y = true := by
  simp [anyCell]

end Bitmap

end Chip8
