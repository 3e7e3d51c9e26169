/-!
# Fields of an instruction word

A word is read as four nibbles. The high one selects a family of instructions;
the others name registers (`x`, `y`), a small count (`n`), a byte (`nn`) or an
address (`nnn`). The fields are taken of any integer, negative or of any size,
as shifts and masks of its two's complement: the high field is whatever stands
above the low twelve bits, so that no information is lost.
-/

namespace Chip8

/-- A word together with its operand fields. -/
@[ext]
structure Fields where
  /-- The word itself. -/
  raw : Int
  /-- What stands above the low twelve bits. -/
  opcode : Int
  /-- The second nibble of four. -/
  x : Fin 16
  /-- The third nibble. -/
  y : Fin 16
  /-- The low nibble. -/
  n : Fin 16
  /-- The low byte. -/
  nn : Fin 256
  /-- The low twelve bits. -/
  nnn : Fin 4096
deriving DecidableEq, Repr

namespace Fields

/-- The fields of the integer `w`. -/
def ofInt (w : Int) : Fields where
  raw := w
  opcode := w / 4096
  x := ⟨(w / 256 % 16).toNat, by omega⟩
  y := ⟨(w / 16 % 16).toNat, by omega⟩
  n := ⟨(w % 16).toNat, by omega⟩
  nn := ⟨(w % 256).toNat, by omega⟩
  nnn := ⟨(w % 4096).toNat, by omega⟩

/-- The fields of a 16-bit word. -/
def ofWord (w : UInt16) : Fields :=
  ofInt w.toNat

end Fields

end Chip8
