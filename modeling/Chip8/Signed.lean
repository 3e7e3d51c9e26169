/-!
# Signed numbers of a given width

A signed number of `bits` bits lies between `-2 ^ (bits - 1)` and
`2 ^ (bits - 1)`, the upper end excluded.
-/

namespace Chip8

/-- Whether `n` is a signed number of so many bits. -/
def isSigned (bits : Nat) (n : Int) : Bool :=
  -Int.pow 2 (bits - 1) ≤ n ∧ n < Int.pow 2 (bits - 1)

theorem isSigned_iff {bits : Nat} {n : Int} :
    isSigned bits n = true ↔ -Int.pow 2 (bits - 1) ≤ n ∧ n < Int.pow 2 (bits - 1) := by
  simp [isSigned]

end Chip8
