import Chip8.Text.Listing

/-!
# Colours and palettes

A palette has a colour for lit cells and one for the others. Five palettes have
names.
-/

namespace Chip8

/-- A colour by its red, green and blue components. -/
structure Colour where
  /-- The red component. -/
  red : UInt8
  /-- The green component. -/
  green : UInt8
  /-- The blue component. -/
  blue : UInt8
deriving DecidableEq, Repr

namespace Colour

/-- Why a list of numbers is no colour for a number of cells. -/
inductive ComponentError where
  /-- A component is not in the range from 0 to 255. -/
  | outOfRange
  /-- There is neither one component for all three nor one for each. -/
  | wrongNumber (components cells : Nat)
deriving DecidableEq, Repr

/-- What is said of a list with a wrong number of components. -/
def ComponentError.message : ComponentError → String
  | outOfRange => "colour component out of range"
  | wrongNumber components cells =>
    "shape mismatch: value array of shape " ++ Text.tuple [components] ++
      " could not be broadcast to indexing result of shape (" ++ toString cells ++ ",3)"

/-- The colour with the given components, to be given to a number of cells. -/
def ofComponents (l : List Int) (cells : Nat) : Except ComponentError Colour :=
  if l.all fun c => 0 ≤ c ∧ c < 256 then
    match l.map UInt8.ofInt with
    | [c] => .ok ⟨c, c, c⟩
    | [r, g, b] => .ok ⟨r, g, b⟩
    | l => .error (.wrongNumber l.length cells)
  else
    .error .outOfRange

end Colour

/-- A colour for lit cells and one for the others. -/
structure Palette where
  /-- The colour of lit cells. -/
  on : Colour
  /-- The colour of cells that are not lit. -/
  off : Colour
deriving DecidableEq, Repr

namespace Palette

/-- The palettes with a name. -/
def schemes : List (String × Palette) :=
  [("classic", ⟨⟨0, 255, 0⟩, ⟨0, 0, 0⟩⟩),
   ("amber", ⟨⟨255, 176, 0⟩, ⟨0, 0, 0⟩⟩),
   ("white", ⟨⟨255, 255, 255⟩, ⟨0, 0, 0⟩⟩),
   ("blue", ⟨⟨0, 255, 255⟩, ⟨0, 0, 64⟩⟩),
   ("retro", ⟨⟨255, 255, 0⟩, ⟨64, 0, 64⟩⟩)]

/-- Green on black. -/
def classic : Palette :=
  ⟨⟨0, 255, 0⟩, ⟨0, 0, 0⟩⟩

/-- The palette of the given name. -/
def ofName? (s : String) : Option Palette :=
  schemes.lookup s

/-- What is said of a name that no palette has. -/
def unknownMessage (s : String) : String :=
  "Unknown color scheme '" ++ s ++ "'. Available: " ++ Text.listing (schemes.map (·.1))

end Palette

end Chip8
