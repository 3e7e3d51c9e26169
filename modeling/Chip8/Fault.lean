import Chip8.Text.Numeral

/-!
# Faults

The machine records what its last step did and, once it has stopped, why. Both
records are bytes: the codes that the machine itself produces have names, and
a state may be given any other code from outside.
-/

namespace Chip8

/-- What the last step did. -/
inductive Status where
  /-- It ran an instruction. -/
  | advanced
  /-- It waits: for a key, or on an unknown word. -/
  | blocked
  /-- It stopped the machine. -/
  | faulted
  /-- A code that no step produces. -/
  | other (code : UInt8) (two_lt : 2 < code)
deriving DecidableEq, Repr

namespace Status

/-- The code of a status. -/
def code : Status → UInt8
  | advanced => 0
  | blocked => 1
  | faulted => 2
  | other c _ => c

/-- The status with the given code. -/
def ofCode (c : UInt8) : Status :=
  if h : 2 < c then .other c h
  else if c = 0 then .advanced
  else if c = 1 then .blocked
  else .faulted

end Status

/-- Why a machine stopped. -/
inductive Fault where
  /-- It met a word that encodes no instruction. -/
  | unknownOpcode
  /-- It called a subroutine with every slot of the return stack in use. -/
  | stackOverflow
  /-- It returned with no slot of the return stack in use. -/
  | stackUnderflow
  /-- It would have touched an address past the end of memory. -/
  | memoryOutOfRange
  /-- A code that no step produces. -/
  | other (code : UInt8) (four_lt : 4 < code)
deriving DecidableEq, Repr

namespace Fault

/-- The code of a fault; zero stands for none. -/
def code : Fault → UInt8
  | unknownOpcode => 1
  | stackOverflow => 2
  | stackUnderflow => 3
  | memoryOutOfRange => 4
  | other c _ => c

/-- The fault with the given code, where zero is none. -/
def ofCode? (c : UInt8) : Option Fault :=
  if h : 4 < c then some (.other c h)
  else if c = 0 then none
  else if c = 1 then some .unknownOpcode
  else if c = 2 then some .stackOverflow
  else if c = 3 then some .stackUnderflow
  else some .memoryOutOfRange

/-- A fault in words. -/
def description : Fault → String
  | unknownOpcode => "unknown opcode"
  | stackOverflow => "stack overflow"
  | stackUnderflow => "return with empty stack"
  | memoryOutOfRange => "memory access out of range"
  | other _ _ => "machine fault"

end Fault

/-- The account of a stop: its cause, where the machine stands, and the word
    that it stopped on. -/
structure MachineFault where
  /-- Why the machine stopped. -/
  cause : Fault
  /-- The address of the failing instruction, or the address out of range. -/
  pc : UInt16
  /-- The failing word, or zero if there was none to fetch. -/
  word : UInt16
deriving DecidableEq, Repr

/-- The account in words. -/
def MachineFault.message (f : MachineFault) : String :=
  f.cause.description ++ " at 0x" ++ Text.hexadecimal 3 f.pc.toNat ++
    " (opcode 0x" ++ Text.hexadecimal 4 f.word.toNat ++ ")"

end Chip8
