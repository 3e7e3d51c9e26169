import Chip8.Text.Listing

/-!
# Policies for unknown words

A word that encodes no instruction stops the machine, is passed over, or holds
the machine in place.
-/

namespace Chip8

/-- What the machine does with a word that encodes no instruction. -/
inductive Policy where
  /-- Stop with a fault. -/
  | halt
  /-- Report it and go on with the next instruction. -/
  | skip
  /-- Report it and stay on it. -/
  | stall
deriving DecidableEq, Repr

namespace Policy

/-- The name of a policy. -/
def name : Policy → String
  | halt => "halt"
  | skip => "skip"
  | stall => "stall"

/-- Every policy. -/
def all : List Policy :=
  [halt, skip, stall]

/-- The policy of the given name. -/
def ofName? (s : String) : Option Policy :=
  all.find? (·.name = s)

/-- What is said of a name that no policy has. -/
def unknownMessage (s : String) : String :=
  "Unknown opcode policy '" ++ s ++ "'. Available: " ++ Text.listing (all.map name)

end Policy

end Chip8
