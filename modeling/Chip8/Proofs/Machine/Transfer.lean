import Chip8.Proofs.Machine.Policy
import Chip8.Proofs.Memory

/-!
# Storing and loading registers

`FX55` stores the registers `V0` to `VX` at the index register, and `FX65` loads them
from there, as long as all of these bytes lie in memory. Both take all sixteen registers
and as many bytes of memory at once, of which a mask selects the first `X + 1`: what is
stored past them is what has been read there (`Machine.lanes`). Near the end of memory
some of these bytes do not exist; what is read for them is masked out, and what is
written to them is dropped (`memory_storeRegisters`).

Hence each instruction undoes the other (`store_restore_exact`).
-/

namespace Chip8.Machine

variable {m : Machine} {x : Fin 16}

/-- What is written for all sixteen registers: the register up to `VX`, and past it the
    byte that has been read. -/
def lanes (m : Machine) (x : Fin 16) : List UInt8 :=
  (List.finRange 16).map fun j => if j ≤ x then m.v.get j else m.memory.read (m.index.toNat + j)

theorem length_lanes (m : Machine) (x : Fin 16) : (m.lanes x).length = 16 := by
  rw [lanes, List.length_map, List.length_finRange]

/-! ### Storing -/

theorem execute_store (h : m.index.toNat + x ≤ 4095) :
    m.execute (Instruction.store x).encode =
      .silent ((m.storeRegisters x).advanceIndex (x + 1)) := by
  have hin : m.index.toNat + x < Memory.size := Nat.lt_succ_of_le h
  rw [execute_encode, exec, if_pos hin]

theorem length_stored (m : Machine) (x : Fin 16) : (m.v.toList.take (x + 1)).length = x + 1 := by
  rw [List.length_take, Vector.length_toList]
  exact Nat.min_eq_left x.isLt

theorem read_storeRegisters {j : Fin 16} (hj : j ≤ x) (h : m.index.toNat + x ≤ 4095) :
    (m.storeRegisters x).memory.read (m.index.toNat + j) = m.v.get j := by
  have hj' : j.val < (m.v.toList.take (x + 1)).length := by
    rw [length_stored]
    omega
  have ha : m.index.toNat + j < Memory.size := by
    rw [Memory.size]
    omega
  rw [storeRegisters, Memory.read_writeAll_add hj' ha, List.getElem_take]
  rfl

theorem read_storeRegisters_of_outside {a : Nat} (ha : a < Memory.size)
    (h : a < m.index.toNat ∨ m.index.toNat + x < a) :
    (m.storeRegisters x).memory.read a = m.memory.read a := by
  refine Memory.read_writeAll_of_outside _ ha ?_ m.memory
  rw [length_stored]
  omega

/-- A memory that holds the registers, and all else as before, is the one that results
    from storing them. -/
theorem eq_memory_storeRegisters {memory : Memory} (h : m.index.toNat + x ≤ 4095)
    (hin : ∀ j ≤ x, memory.read (m.index.toNat + j) = m.v.get j)
    (hout : ∀ a < Memory.size, a < m.index.toNat ∨ m.index.toNat + x < a →
      memory.read a = m.memory.read a) :
    memory = (m.storeRegisters x).memory := by
  refine Memory.ext_read fun a ha => ?_
  by_cases hb : a < m.index.toNat ∨ m.index.toNat + x < a
  · rw [hout a ha hb, read_storeRegisters_of_outside ha hb]
  · obtain ⟨j, rfl⟩ := Nat.exists_eq_add_of_le (show m.index.toNat ≤ a by omega)
    have hj : (⟨j, by omega⟩ : Fin 16) ≤ x := Fin.mk_le_of_le_val (by omega)
    exact (hin _ hj).trans (read_storeRegisters hj h).symm

/-- All sixteen registers are written, and past `VX` what has been read there. -/
theorem memory_storeRegisters (h : m.index.toNat + x ≤ 4095) :
    (m.storeRegisters x).memory = m.memory.writeAll m.index.toNat (m.lanes x) := by
  refine (eq_memory_storeRegisters h ?_ ?_).symm
  · intro j hj
    rw [Memory.read_writeAll_add (by rw [length_lanes]; exact j.isLt) (by rw [Memory.size]; omega)]
    simp [lanes, hj]
  · intro a ha hb
    rw [Memory.read_writeAll _ ha]
    split_ifs with hle
    · -- a lane past `VX` is written back as it has been read, and there are no more than sixteen
      obtain ⟨k, rfl⟩ := Nat.exists_eq_add_of_le hle
      rw [Nat.add_sub_cancel_left]
      rcases Nat.lt_or_ge k 16 with hk | hk
      · have hx : ¬ (⟨k, hk⟩ : Fin 16) ≤ x := Fin.not_le.2 (Fin.lt_def.2 (show x.val < k by omega))
        rw [List.getD_eq_getElem _ _ (by rwa [length_lanes])]
        simp [lanes, hx]
      · exact List.getD_eq_default _ _ (by rwa [length_lanes])
    · rfl

/-! ### Loading -/

theorem execute_restore (h : m.index.toNat + x ≤ 4095) :
    m.execute (Instruction.restore x).encode =
      .silent ((m.loadRegisters x).advanceIndex (x + 1)) := by
  have hin : m.index.toNat + x < Memory.size := Nat.lt_succ_of_le h
  rw [execute_encode, exec, if_pos hin]

theorem get_loadRegisters (j : Fin 16) :
    (m.loadRegisters x).v.get j =
      if j ≤ x then m.memory.read (m.index.toNat + j) else m.v.get j :=
  Vector.getElem_ofFn j.isLt

/-! ### One after the other -/

theorem toNat_advanceIndex (m : Machine) (n : Nat) :
    (m.advanceIndex n).index.toNat = (m.index.toNat + n) % 4096 := by
  refine UInt16.toNat_ofNat_of_lt' ?_
  rw [UInt16.size]
  omega

theorem memory_advanceIndex (m : Machine) (n : Nat) : (m.advanceIndex n).memory = m.memory := by
  rw [advanceIndex]

theorem v_advanceIndex (m : Machine) (n : Nat) : (m.advanceIndex n).v = m.v := by
  rw [advanceIndex]

theorem index_storeRegisters : (m.storeRegisters x).index = m.index := by
  rw [storeRegisters]

theorem index_loadRegisters : (m.loadRegisters x).index = m.index := by
  rw [loadRegisters]

theorem memory_loadRegisters : (m.loadRegisters x).memory = m.memory := by
  rw [loadRegisters]

/-- What was stored is loaded again by any machine with this memory and index register. -/
theorem get_execute_restore {m' : Machine} (h : m.index.toNat + x ≤ 4095)
    (hmemory : m'.memory = (m.storeRegisters x).memory) (hindex : m'.index = m.index) {j : Fin 16}
    (hj : j ≤ x) : (m'.execute (Instruction.restore x).encode).machine.v.get j = m.v.get j := by
  have h' : m'.index.toNat + x ≤ 4095 := by rwa [hindex]
  rw [execute_restore h', Outcome.machine_silent, v_advanceIndex, get_loadRegisters, if_pos hj,
    hmemory, hindex, read_storeRegisters hj h]

/-- What was loaded is in place already. -/
theorem memory_execute_store {m' : Machine} (h : m.index.toNat + x ≤ 4095)
    (hmemory : m'.memory = m.memory) (hv : m'.v = (m.loadRegisters x).v)
    (hindex : m'.index = m.index) :
    (m'.execute (Instruction.store x).encode).machine.memory = m.memory := by
  have h' : m'.index.toNat + x ≤ 4095 := by rwa [hindex]
  rw [execute_store h', Outcome.machine_silent, memory_advanceIndex]
  refine (eq_memory_storeRegisters h' ?_ ?_).symm
  · intro j hj
    rw [hv, hindex, get_loadRegisters, if_pos hj]
  · intro a _ _
    rw [hmemory]

/-- If the bytes at the index register up to that of `VX` lie in memory, `FX55` puts `V0`
    to `VX` there, just as if all sixteen registers were written of which a mask selects
    these, and `FX65` takes `V0` to `VX` from there. Both move the index register past
    these bytes and leave all else as it was. So what was stored is loaded again, whatever
    has become of the registers, and storing what was loaded does not change memory. -/
theorem store_restore_exact (m : Machine) (x : Fin 16) (h : m.index.toNat + x ≤ 4095) :
    let stored := (m.execute (Instruction.store x).encode).machine
    let loaded := (m.execute (Instruction.restore x).encode).machine
    (stored = { m with memory := stored.memory, index := stored.index } ∧
        stored.index.toNat = (m.index.toNat + x + 1) % 4096 ∧
        (∀ j ≤ x, stored.memory.read (m.index.toNat + j) = m.v.get j) ∧
        (∀ a < Memory.size, a < m.index.toNat ∨ m.index.toNat + x < a →
          stored.memory.read a = m.memory.read a) ∧
        stored.memory = m.memory.writeAll m.index.toNat (m.lanes x)) ∧
      (loaded = { m with v := loaded.v, index := loaded.index } ∧
        loaded.index.toNat = (m.index.toNat + x + 1) % 4096 ∧
        (∀ j ≤ x, loaded.v.get j = m.memory.read (m.index.toNat + j)) ∧
        ∀ j, x < j → loaded.v.get j = m.v.get j) ∧
      (∀ v, ∀ j ≤ x,
        ({ stored with v := v, index := m.index }.execute
          (Instruction.restore x).encode).machine.v.get j = m.v.get j) ∧
      ({ loaded with index := m.index }.execute
        (Instruction.store x).encode).machine.memory = m.memory := by
  intro stored loaded
  have hstored : stored = (m.storeRegisters x).advanceIndex (x + 1) :=
    congrArg Outcome.machine (execute_store h)
  have hloaded : loaded = (m.loadRegisters x).advanceIndex (x + 1) :=
    congrArg Outcome.machine (execute_restore h)
  clear_value stored loaded
  subst hstored hloaded
  refine ⟨⟨?_, ?_, ?_, ?_, ?_⟩, ⟨?_, ?_, ?_, ?_⟩, ?_, ?_⟩
  · rw [advanceIndex, storeRegisters]
  · rw [toNat_advanceIndex, index_storeRegisters, Nat.add_assoc]
  · intro j hj
    rw [memory_advanceIndex, read_storeRegisters hj h]
  · intro a ha hb
    rw [memory_advanceIndex, read_storeRegisters_of_outside ha hb]
  · rw [memory_advanceIndex, memory_storeRegisters h]
  · rw [advanceIndex, loadRegisters]
  · rw [toNat_advanceIndex, index_loadRegisters, Nat.add_assoc]
  · intro j hj
    rw [v_advanceIndex, get_loadRegisters, if_pos hj]
  · intro j hj
    rw [v_advanceIndex, get_loadRegisters, if_neg (Fin.not_le.2 hj)]
  · intro v j hj
    refine get_execute_restore h ?_ ?_ hj
    · rw [memory_advanceIndex]
    · rfl
  · have hmemory : (m.loadRegisters x).memory = m.memory := by rw [loadRegisters]
    refine memory_execute_store h ?_ ?_ ?_
    · rw [memory_advanceIndex, hmemory]
    · rw [v_advanceIndex]
    · rfl

/-- Three registers stored in the last three bytes of memory, and loaded again after they
    have been cleared. -/
theorem store_restore_exact_lastByte :
    let m : Machine := { create ⟨0, 0⟩ .halt with
      memory := .zero
      index := 0xFFD
      v := .ofFn fun j => .ofNat (j + 1) }
    let stored := (m.execute 0xF255).machine
    m.index.toNat + 2 ≤ 4095 ∧
      (stored.memory.read 0xFFC, stored.memory.read 0xFFD, stored.memory.read 0xFFF) = (0, 1, 3) ∧
      stored.index = 0 ∧
      ({ stored with v := .replicate 16 0, index := 0xFFD }.execute
        0xF265).machine.v.get 2 = 3 := by
  intro m stored
  have hstore : (Instruction.store 2).encode = 0xF255 := by decide
  have hrestore : (Instruction.restore 2).encode = 0xF265 := by decide
  obtain ⟨⟨-, hindex, hin, hout, -⟩, -, hagain, -⟩ :=
    store_restore_exact m 2 (by decide)
  rw [hstore] at hindex hin hout hagain
  rw [hrestore] at hagain
  refine ⟨by decide, ?_, ?_, ?_⟩
  · rw [Prod.mk.injEq, Prod.mk.injEq]
    exact ⟨(hout 0xFFC (by decide) (.inl (by decide))).trans (by decide +kernel),
      hin 0 (by decide), hin 2 (by decide)⟩
  · rw [← UInt16.toNat_inj]
    exact hindex.trans (by decide)
  · exact hagain (.replicate 16 0) 2 (by decide)

end Chip8.Machine
