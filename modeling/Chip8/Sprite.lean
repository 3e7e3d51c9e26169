import Chip8.Bitmap

/-!
# Sprites

A sprite is a list of rows of eight cells, each row a byte with the leftmost
cell in its highest bit. It is drawn at a place on the screen by flipping the
cells that it lights, and wraps around all edges. A collision is a cell that
was lit before and that the sprite lights too.
-/

namespace Chip8

/-- The width of the screen. -/
def screenWidth : Nat := 64

/-- The height of the screen. -/
def screenHeight : Nat := 32

/-- The cells of the screen. -/
abbrev Screen := Bitmap 64 32

/-- Rows of cells with the place of their top left corner, taken modulo the
    size of the screen. -/
structure Sprite where
  /-- The column of the leftmost cells. -/
  left : Nat
  /-- The row of the topmost cells. -/
  top : Nat
  /-- The rows, from the top. -/
  rows : List UInt8
deriving DecidableEq, Repr

namespace Sprite

/-- Whether the sprite lights the cell `(x, y)` of the screen. -/
def lights (s : Sprite) (x : Fin 64) (y : Fin 32) : Bool :=
  let column := (x + (64 - s.left % 64)) % 64
  let row := (y + (32 - s.top % 32)) % 32
  column < 8 && (s.rows.getD row 0).toNat.testBit (7 - column)

/-- The screen with the sprite drawn on it. -/
def drawOn (s : Sprite) (screen : Screen) : Screen :=
  .ofFn fun x y => screen.get x y ^^ s.lights x y

/-- Whether the sprite lights a cell that is lit already. -/
def collides (s : Sprite) (screen : Screen) : Bool :=
  Bitmap.anyCell fun x y => screen.get x y && s.lights x y

end Sprite

end Chip8
