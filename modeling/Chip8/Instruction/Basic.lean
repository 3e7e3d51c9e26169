/-!
# Instructions

The thirty-four instruction forms with their operands, and the word that
encodes each. Reading a word back is `Instruction.ofWord?`
(`Chip8.Instruction.Decode`); a word that encodes nothing is not an
instruction, and what the machine does with it is a matter of its policy.
-/

namespace Chip8

/-- The nine operations on a pair of registers, `8XY0` to `8XY7` and `8XYE`. -/
inductive Alu where
  /-- Copies `VY` (`8XY0`). -/
  | copy
  /-- Bitwise or (`8XY1`). -/
  | or
  /-- Bitwise and (`8XY2`). -/
  | and
  /-- Bitwise exclusive or (`8XY3`). -/
  | xor
  /-- Adds (`8XY4`); the flag is the carry. -/
  | add
  /-- Takes `VY` from `VX` (`8XY5`); the flag tells that nothing was borrowed. -/
  | sub
  /-- Shifts `VX` right (`8XY6`); the flag is the bit shifted out. -/
  | shiftRight
  /-- Takes `VX` from `VY` (`8XY7`); the flag tells that nothing was borrowed. -/
  | subFrom
  /-- Shifts `VX` left (`8XYE`); the flag is the bit shifted out. -/
  | shiftLeft
deriving DecidableEq, Repr

namespace Alu

/-- The low nibble that selects the operation. -/
def nibble : Alu → Nat
  | copy => 0
  | or => 1
  | and => 2
  | xor => 3
  | add => 4
  | sub => 5
  | shiftRight => 6
  | subFrom => 7
  | shiftLeft => 14

/-- The operation that a low nibble selects: `8` to `D` and `F` select none. -/
def ofNibble? : Nat → Option Alu
  | 0 => some copy
  | 1 => some or
  | 2 => some and
  | 3 => some xor
  | 4 => some add
  | 5 => some sub
  | 6 => some shiftRight
  | 7 => some subFrom
  | 14 => some shiftLeft
  | _ => none

end Alu

/-- An instruction with its operands: registers `x` and `y`, a count `n`, a
    byte `k` or an address `a`. -/
inductive Instruction where
  /-- Clears the display (`00E0`). -/
  | clear
  /-- Returns from a subroutine (`00EE`). -/
  | ret
  /-- Jumps (`1NNN`). -/
  | jump (a : Fin 4096)
  /-- Calls a subroutine (`2NNN`). -/
  | call (a : Fin 4096)
  /-- Skips the next instruction if `VX` is `k` (`3XNN`). -/
  | skipEq (x : Fin 16) (k : UInt8)
  /-- Skips the next instruction unless `VX` is `k` (`4XNN`). -/
  | skipNe (x : Fin 16) (k : UInt8)
  /-- Skips the next instruction if `VX` and `VY` are equal (`5XY0`). -/
  | skipEqReg (x y : Fin 16)
  /-- Puts `k` into `VX` (`6XNN`). -/
  | load (x : Fin 16) (k : UInt8)
  /-- Adds `k` to `VX` and leaves the flag alone (`7XNN`). -/
  | addImm (x : Fin 16) (k : UInt8)
  /-- Combines `VX` and `VY` into `VX` (`8XY_`). -/
  | alu (op : Alu) (x y : Fin 16)
  /-- Skips the next instruction unless `VX` and `VY` are equal (`9XY0`). -/
  | skipNeReg (x y : Fin 16)
  /-- Puts an address into the index register (`ANNN`). -/
  | loadIndex (a : Fin 4096)
  /-- Jumps to `a + V0` (`BNNN`). -/
  | jumpOffset (a : Fin 4096)
  /-- Puts a random byte, masked by `k`, into `VX` (`CXNN`). -/
  | random (x : Fin 16) (k : UInt8)
  /-- Draws the `n` sprite rows at the index register at `(VX, VY)` (`DXYN`). -/
  | draw (x y n : Fin 16)
  /-- Skips the next instruction if the key `VX` is down (`EX9E`). -/
  | skipKey (x : Fin 16)
  /-- Skips the next instruction unless the key `VX` is down (`EXA1`). -/
  | skipNoKey (x : Fin 16)
  /-- Reads the delay timer (`FX07`). -/
  | readDelay (x : Fin 16)
  /-- Waits for a key (`FX0A`). -/
  | waitKey (x : Fin 16)
  /-- Sets the delay timer (`FX15`). -/
  | setDelay (x : Fin 16)
  /-- Sets the sound timer (`FX18`). -/
  | setSound (x : Fin 16)
  /-- Adds `VX` to the index register (`FX1E`). -/
  | addIndex (x : Fin 16)
  /-- Points the index register at the glyph of the digit `VX` (`FX29`). -/
  | glyph (x : Fin 16)
  /-- Stores the three decimal digits of `VX` (`FX33`). -/
  | decimal (x : Fin 16)
  /-- Stores `V0` to `VX` (`FX55`). -/
  | store (x : Fin 16)
  /-- Loads `V0` to `VX` (`FX65`). -/
  | restore (x : Fin 16)
deriving DecidableEq, Repr

namespace Instruction

/-- The number whose four hexadecimal digits are `c`, `x`, `y` and `n`. -/
def nibbles (c : Nat) (x y : Fin 16) (n : Nat) : Nat :=
  c * 4096 + x * 256 + y * 16 + n

/-- The number whose high nibbles are `c` and `x` and whose low byte is `k`. -/
def withByte (c : Nat) (x : Fin 16) (k : Nat) : Nat :=
  c * 4096 + x * 256 + k

/-- The number that encodes an instruction. -/
def code : Instruction → Nat
  | clear => 0x00E0
  | ret => 0x00EE
  | jump a => 0x1000 + a
  | call a => 0x2000 + a
  | skipEq x k => withByte 0x3 x k.toNat
  | skipNe x k => withByte 0x4 x k.toNat
  | skipEqReg x y => nibbles 0x5 x y 0
  | load x k => withByte 0x6 x k.toNat
  | addImm x k => withByte 0x7 x k.toNat
  | alu op x y => nibbles 0x8 x y op.nibble
  | skipNeReg x y => nibbles 0x9 x y 0
  | loadIndex a => 0xA000 + a
  | jumpOffset a => 0xB000 + a
  | random x k => withByte 0xC x k.toNat
  | draw x y n => nibbles 0xD x y n
  | skipKey x => withByte 0xE x 0x9E
  | skipNoKey x => withByte 0xE x 0xA1
  | readDelay x => withByte 0xF x 0x07
  | waitKey x => withByte 0xF x 0x0A
  | setDelay x => withByte 0xF x 0x15
  | setSound x => withByte 0xF x 0x18
  | addIndex x => withByte 0xF x 0x1E
  | glyph x => withByte 0xF x 0x29
  | decimal x => withByte 0xF x 0x33
  | store x => withByte 0xF x 0x55
  | restore x => withByte 0xF x 0x65

/-- The word that encodes an instruction. -/
def encode (i : Instruction) : UInt16 :=
  .ofNat i.code

end Instruction

end Chip8
