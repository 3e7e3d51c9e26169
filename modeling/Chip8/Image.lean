import Chip8.Bitmap
import Chip8.Capacity
import Chip8.Palette

/-!
# Images

An image is a rectangle of colours, row by row. A bitmap is painted with a
palette, each cell as a square of pixels: first one pixel for a cell, then the
rows and the columns are repeated, if there is room for the image.
-/

namespace Chip8

/-- An image of width `w` and height `h`. -/
@[ext]
structure Image (w h : Nat) where
  /-- The rows of pixels, each from left to right. -/
  rows : Vector (Vector Colour w) h
deriving DecidableEq

namespace Image

variable {w h : Nat}

/-- The pixel in column `x` and row `y`. -/
def get (i : Image w h) (x : Fin w) (y : Fin h) : Colour :=
  (i.rows.get y).get x

/-- The image whose pixel in column `x` and row `y` is `f x y`. -/
def ofFn (f : Fin w → Fin h → Colour) : Image w h :=
  ⟨.ofFn fun y => .ofFn fun x => f x y⟩

/-- The image with rows and columns exchanged. -/
def transpose (i : Image w h) : Image h w :=
  ofFn fun x y => i.get y x

/-- A row with every pixel repeated `s` times. -/
def widen (row : Vector Colour w) (s : Nat) : Vector Colour (w * s) :=
  (row.map (Vector.replicate s)).flatten

/-- The image with every pixel made a square of `s` by `s`. -/
def enlarge (i : Image w h) (s : Nat) : Image (w * s) (h * s) :=
  ⟨(i.rows.map fun row => Vector.replicate s (widen row s)).flatten⟩

/-- An image as an array of colour components. -/
structure Rendering where
  /-- The extents of the array. -/
  extents : List Int
  /-- The number of columns of pixels. -/
  width : Nat
  /-- The number of rows of pixels. -/
  height : Nat
  /-- The pixels. -/
  image : Image width height

/-- The column, or the row, in which a pixel lies before its axis is repeated
    `s` times. -/
def cell {n s : Nat} (i : Fin (n * s)) : Fin n :=
  ⟨i / s, Nat.div_lt_of_lt_mul (Nat.mul_comm n s ▸ i.isLt)⟩

@[simp, grind =]
theorem get_ofFn (f : Fin w → Fin h → Colour) (x : Fin w) (y : Fin h) :
    (ofFn f).get x y = f x y := by
  change (ofFn f).rows[y][x] = f x y
  simp [ofFn]

@[simp, grind =]
theorem get_enlarge (i : Image w h) (s : Nat) (x : Fin (w * s)) (y : Fin (h * s)) :
    (i.enlarge s).get x y = i.get (cell x) (cell y) := by
  change (i.enlarge s).rows[y][x] = i.rows[cell y][cell x]
  simp [enlarge, widen, cell, Vector.getElem_flatten]

end Image

namespace Bitmap

variable {w h : Nat}

/-- The side of the square that a cell becomes: the scale asked for, but at
    least one pixel. -/
def cellSize (scale : Int) : Nat :=
  max 1 scale.toNat

/-- The number of lit cells. -/
def litCount (b : Bitmap w h) : Nat :=
  b.columns.toList.foldl (fun n column => n + column.toList.count true) 0

/-- The bitmap as an image in which a cell is a square of `s` by `s` pixels. -/
def paint (b : Bitmap w h) (p : Palette) (s : Nat) : Image (w * s) (h * s) :=
  (Image.ofFn fun x y => if b.get x y then p.on else p.off).enlarge s

@[simp, grind =]
theorem get_paint (b : Bitmap w h) (p : Palette) (s : Nat) (x : Fin (w * s)) (y : Fin (h * s)) :
    (b.paint p s).get x y = if b.get (Image.cell x) (Image.cell y) then p.on else p.off := by
  simp [paint]

/-- The palette made of two lists of components, for painting the bitmap. -/
def paletteOf (b : Bitmap w h) (on off : List Int) : Except Colour.ComponentError Palette :=
  match Colour.ofComponents on b.litCount with
  | .error e => .error e
  | .ok on =>
    match Colour.ofComponents off (w * h - b.litCount) with
    | .error e => .error e
    | .ok off => .ok ⟨on, off⟩

/-! ### Room -/

/-- The extents of the image as an array, in which a pixel has three components.
    Without columns the number of rows is not known, and there is no axis for
    them. -/
def extents (w h : Nat) : List Int :=
  if w = 0 then [0, 3] else [h, w, 3]

/-- Makes room for painting a bitmap at a scale: for the image with its first
    axis repeated, and then for the image with its second axis repeated too. -/
def room (cap : Capacity) (w h : Nat) (scale : Int) : Except Capacity.Refusal (List Int) :=
  match extents w h with
  | rows :: columns :: rest => do
    if scale ≤ 1 then return rows :: columns :: rest
    let rows ← Capacity.repeated rows scale
    let _ ← cap.reserve 1 (rows :: columns :: rest)
    let columns ← Capacity.repeated columns scale
    cap.reserve 1 (rows :: columns :: rest)
  | l => .ok l

/-! ### Rendering -/

/-- The upper left part of the image of a bitmap, of so many columns and rows, or
    all of it if it has not so many. -/
def paintPart (b : Bitmap w h) (p : Palette) (s columns rows : Nat) :
    Image (min columns (w * s)) (min rows (h * s)) :=
  .ofFn fun x y =>
    let x := x.castLE (Nat.min_le_right columns (w * s))
    let y := y.castLE (Nat.min_le_right rows (h * s))
    if b.get (Image.cell x) (Image.cell y) then p.on else p.off

/-- The whole image of a bitmap. -/
def whole (b : Bitmap w h) (p : Palette) (s : Nat) : Image.Rendering :=
  ⟨[↑(h * s), ↑(w * s), 3], w * s, h * s, b.paint p s⟩

/-- The bitmap painted at a scale, if there is room. It is not whole if an extent of
    the whole image is kept to 64 bits and thus shorter than it should be. -/
def render (cap : Capacity) (b : Bitmap w h) (p : Palette) (scale : Int) :
    Except Capacity.Refusal Image.Rendering :=
  match room cap w h scale with
  | .error e => .error e
  | .ok extents =>
    let s := cellSize scale
    if extents = [↑(h * s), ↑(w * s), 3] then .ok (b.whole p s)
    else
      let part := b.paintPart p s (extents.getD 1 0).toNat (extents.getD 0 0).toNat
      .ok ⟨extents, _, _, part⟩

end Bitmap

end Chip8
