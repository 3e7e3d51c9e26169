import Chip8.Machine.Execute

/-!
# Steps

A step fetches the word at the address of the next instruction, moves past it
and executes it. A machine that has stopped stays as it is, and one whose next
address leaves no room for a word stops there.
-/

namespace Chip8.Machine

/-- The word at the address of the next instruction, and the machine moved
    past it. -/
def fetch (m : Machine) : UInt16 × Machine :=
  (m.memory.word m.pc.toNat (m.pc + 1).toNat, { m with pc := m.pc + 2 })

/-- Fetches and executes a word. -/
def fetchExecute (m : Machine) : Outcome :=
  m.fetch.2.execute m.fetch.1

/-- Runs one instruction. -/
def step (m : Machine) : Outcome :=
  if m.halted then .silent m
  else
    let m := { m with status := .advanced }
    if m.pc.toNat + 2 ≤ Memory.size then m.fetchExecute
    else .silent (m.signal (some .memoryOutOfRange) 0)

end Chip8.Machine

namespace Chip8.Outcome

/-- Runs `n` more steps. -/
def steps (o : Outcome) : Nat → Outcome
  | 0 => o
  | n + 1 => (o.andThen Machine.step).steps n

end Chip8.Outcome
