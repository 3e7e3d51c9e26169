import Chip8.Instruction.Basic
import Chip8.Instruction.Fields

/-!
# Reading instruction words

`Instruction.ofWord?` reads the instruction that a word encodes. It is defined
on the fields of the word, family by family, and answers `none` on exactly the
words that encode nothing.
-/

namespace Chip8.Instruction

/-- The instruction of the family `E`, which acts on the keypad. -/
def ofKeyFields? (f : Fields) : Option Instruction :=
  match f.nn.val with
  | 0x9E => some (.skipKey f.x)
  | 0xA1 => some (.skipNoKey f.x)
  | _ => none

/-- The instruction of the family `F`: timers, index register and memory. -/
def ofMiscFields? (f : Fields) : Option Instruction :=
  match f.nn.val with
  | 0x07 => some (.readDelay f.x)
  | 0x0A => some (.waitKey f.x)
  | 0x15 => some (.setDelay f.x)
  | 0x18 => some (.setSound f.x)
  | 0x1E => some (.addIndex f.x)
  | 0x29 => some (.glyph f.x)
  | 0x33 => some (.decimal f.x)
  | 0x55 => some (.store f.x)
  | 0x65 => some (.restore f.x)
  | _ => none

/-- The instruction with the given fields, if there is one. -/
def ofFields? (f : Fields) : Option Instruction :=
  match f.opcode.toNat with
  | 0x0 => if f.raw = 0x00E0 then some .clear else if f.raw = 0x00EE then some .ret else none
  | 0x1 => some (.jump f.nnn)
  | 0x2 => some (.call f.nnn)
  | 0x3 => some (.skipEq f.x (.ofFin f.nn))
  | 0x4 => some (.skipNe f.x (.ofFin f.nn))
  | 0x5 => if f.n = 0 then some (.skipEqReg f.x f.y) else none
  | 0x6 => some (.load f.x (.ofFin f.nn))
  | 0x7 => some (.addImm f.x (.ofFin f.nn))
  | 0x8 => (Alu.ofNibble? f.n).map (.alu · f.x f.y)
  | 0x9 => if f.n = 0 then some (.skipNeReg f.x f.y) else none
  | 0xA => some (.loadIndex f.nnn)
  | 0xB => some (.jumpOffset f.nnn)
  | 0xC => some (.random f.x (.ofFin f.nn))
  | 0xD => some (.draw f.x f.y f.n)
  | 0xE => ofKeyFields? f
  | 0xF => ofMiscFields? f
  | _ => none

/-- The instruction that the word `w` encodes, if it encodes one. -/
def ofWord? (w : UInt16) : Option Instruction :=
  ofFields? (.ofWord w)

end Chip8.Instruction
