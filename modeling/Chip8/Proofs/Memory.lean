import Chip8.Memory
import Mathlib.Data.List.GetD
import Mathlib.Tactic.SplitIfs

/-!
# Runs of bytes in memory

What a memory holds after bytes have been put into it (`read_writeAll`), and what is
read from it (`getD_readAll`). Bytes that are put past the end are dropped, and it does
not matter whether they are.
-/

namespace Chip8.Memory

variable {memory : Memory} {a c n : Nat} {l : List UInt8}

theorem length_readAll (memory : Memory) (a n : Nat) : (memory.readAll a n).length = n := by
  rw [readAll, List.length_map, List.length_range]

theorem getD_readAll (memory : Memory) (hc : c < n) (b : UInt8) :
    (memory.readAll a n).getD c b = memory.read (a + c) := by
  rw [readAll, List.getD_eq_getElem _ _ (by simpa using hc), List.getElem_map, List.getElem_range]

/-- After bytes have been put into memory from `a` on, an address from there on holds the
    byte that was put there, or what it held before if it lies past the last of them. -/
theorem read_writeAll (l : List UInt8) (hc : c < size) (memory : Memory) :
    (memory.writeAll a l).read c =
      if a ≤ c then l.getD (c - a) (memory.read c) else memory.read c := by
  induction l generalizing a memory with
  | nil => simp [writeAll]
  | cons b l ih =>
    rw [writeAll, ih, read_write hc]
    rcases Nat.lt_trichotomy c a with h | rfl | h
    · rw [if_neg (by omega), if_neg (by omega), if_neg (by omega)]
    · rw [if_neg (by omega), if_pos rfl, if_pos (by omega), Nat.sub_self, List.getD_cons_zero]
    · have hcons : c - a = c - (a + 1) + 1 := by omega
      rw [if_pos (by omega), if_neg (by omega), if_pos (by omega), hcons, List.getD_cons_succ]

theorem read_writeAll_add {j : Nat} (hj : j < l.length) (h : a + j < size) (memory : Memory) :
    (memory.writeAll a l).read (a + j) = l[j] := by
  rw [read_writeAll l h, if_pos (by omega), Nat.add_sub_cancel_left, List.getD_eq_getElem _ _ hj]

end Chip8.Memory
