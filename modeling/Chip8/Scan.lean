/-!
# Scans

A scan runs a body over the indices `0` to `n - 1`. The body turns a carried
state into the next one and gives one output for each index.
-/

namespace Chip8

/-- A loop body: the next state and the output at an index. -/
abbrev Body (σ β : Type) := σ → Nat → σ × β

namespace Body

variable {σ β : Type}

/-- Runs the body at one index and keeps the output. -/
def advance (body : Body σ β) (acc : σ × Array β) (i : Nat) : σ × Array β :=
  let next := body acc.1 i
  (next.1, acc.2.push next.2)

/-- The state after `n` indices and the outputs in order. -/
def scan (body : Body σ β) (n : Nat) (s : σ) : σ × Array β :=
  (List.range n).foldl body.advance (s, #[])

theorem scan_succ (body : Body σ β) (n : Nat) (s : σ) :
    body.scan (n + 1) s = body.advance (body.scan n s) n := by
  simp [scan, List.range_succ]

end Body

end Chip8
