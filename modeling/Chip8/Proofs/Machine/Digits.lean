import Chip8.Proofs.Machine.Transfer

/-!
# Decimal digits

`FX33` puts the hundreds, the tens and the ones of `VX` into the three bytes at the index
register, as long as these lie in memory (`execute_decimal`), and fails otherwise
(`execute_decimal_past_end`). It leaves the index register where it is, so `F265` loads the
digits into `V0`, `V1` and `V2` (`get_loadRegisters_storeDigits`). They make up the number
again, even if it has been in one of these registers (`decimal_restore_digits`).
-/

namespace Chip8.Machine

variable {m : Machine} {x : Fin 16}

/-! ### The digits of a byte -/

theorem length_digits (b : UInt8) : (digits b).length = 3 := rfl

theorem digits_le {b d : UInt8} (h : d ∈ digits b) : d.toNat ≤ 9 := by
  have hb := b.toNat_lt
  simp only [digits, List.mem_cons, List.not_mem_nil, or_false] at h
  rcases h with rfl | rfl | rfl <;>
    simp only [UInt8.toNat_div, UInt8.toNat_mod, UInt8.reduceToNat] <;> omega

/-- The digits make up the number. -/
theorem value_digits (b : UInt8) :
    100 * (b / 100).toNat + 10 * (b / 10 % 10).toNat + (b % 10).toNat = b.toNat := by
  simp only [UInt8.toNat_div, UInt8.toNat_mod, UInt8.reduceToNat]
  omega

/-! ### Storing -/

theorem execute_decimal (h : m.index.toNat ≤ 0xFFD) :
    m.execute (Instruction.decimal x).encode = .silent (m.storeDigits x) := by
  have hin : m.index.toNat + 2 < Memory.size := by
    rw [Memory.size]
    omega
  rw [execute_encode, exec, if_pos hin]

theorem execute_decimal_past_end (h : 0xFFE ≤ m.index.toNat) :
    m.execute (Instruction.decimal x).encode =
      .silent (m.fail .memoryOutOfRange (Instruction.decimal x).encode) := by
  have hout : ¬ m.index.toNat + 2 < Memory.size := by
    rw [Memory.size]
    omega
  rw [execute_encode, exec, if_neg hout]

theorem index_storeDigits : (m.storeDigits x).index = m.index := by
  rw [storeDigits]

theorem read_storeDigits {j : Nat} (hj : j < (digits (m.v.get x)).length)
    (h : m.index.toNat ≤ 0xFFD) :
    (m.storeDigits x).memory.read (m.index.toNat + j) = (digits (m.v.get x))[j] := by
  refine Memory.read_writeAll_add hj ?_ m.memory
  rw [length_digits] at hj
  rw [Memory.size]
  omega

theorem read_storeDigits_of_outside {a : Nat} (ha : a < Memory.size)
    (h : a < m.index.toNat ∨ m.index.toNat + 2 < a) :
    (m.storeDigits x).memory.read a = m.memory.read a := by
  refine Memory.read_writeAll_of_outside _ ha ?_ m.memory
  rw [length_digits]
  omega

/-! ### Loading -/

/-- Each digit is loaded into its register. -/
theorem get_loadRegisters_storeDigits {j : Fin 16} (hj : j.val < (digits (m.v.get x)).length)
    (h : m.index.toNat ≤ 0xFFD) :
    ((m.storeDigits x).loadRegisters 2).v.get j = (digits (m.v.get x))[j.val] := by
  have hj' : j ≤ 2 := Fin.le_def.2 (Nat.le_of_lt_succ hj)
  rw [get_loadRegisters, if_pos hj']
  exact read_storeDigits hj h

/-- The second instruction finds the index register where the first left it. -/
theorem execute_restore_storeDigits (h : m.index.toNat ≤ 0xFFD) :
    (m.storeDigits x).execute 0xF265 =
      .silent (((m.storeDigits x).loadRegisters 2).advanceIndex 3) := by
  have hword : 0xF265 = (Instruction.restore 2).encode := by decide
  have hin : (m.storeDigits x).index.toNat + (2 : Fin 16) ≤ 4095 := by
    rw [index_storeDigits]
    omega
  rw [hword, execute_restore hin]
  rfl

/-- If the three bytes at the index register lie in memory, `FX33` writes these bytes alone
    and `F265` loads them: `V0`, `V1` and `V2` are then the decimal digits of what `VX` was,
    whichever register that is, and so are the three bytes. The index register moves past
    them, and all else stays as it was, the records of the status and of the fault
    included. If one of the three bytes lies past the end of memory, `FX33` stops the
    machine on itself, and memory stays as it was. -/
theorem decimal_restore_digits (m : Machine) (x : Fin 16) :
    let stored := m.execute (Instruction.decimal x).encode
    (Instruction.decimal x).encode.toNat = 0xF033 + 256 * x ∧
      (m.index.toNat ≤ 0xFFD →
        let loaded := stored.machine.execute 0xF265
        let m' := loaded.machine
        stored = .silent { m with memory := stored.machine.memory } ∧
          loaded = .silent { stored.machine with v := m'.v, index := m'.index } ∧
          (∀ j : Fin 16, j ≤ 2 → (m'.v.get j).toNat ≤ 9) ∧
          100 * (m'.v.get 0).toNat + 10 * (m'.v.get 1).toNat + (m'.v.get 2).toNat =
            (m.v.get x).toNat ∧
          (∀ j, 2 < j → m'.v.get j = m.v.get j) ∧
          (∀ a < Memory.size, a < m.index.toNat ∨ m.index.toNat + 2 < a →
            m'.memory.read a = m.memory.read a) ∧
          (∀ j : Fin 16, j ≤ 2 → m'.memory.read (m.index.toNat + j) = m'.v.get j) ∧
          m'.index.toNat = (m.index.toNat + 3) % 4096) ∧
      (0xFFE ≤ m.index.toNat →
        stored = .silent { m with
          pc := m.pc - 2
          status := .faulted
          fault := some .memoryOutOfRange
          faultWord := (Instruction.decimal x).encode }) := by
  intro stored
  refine ⟨?_, fun h => ?_, execute_decimal_past_end⟩
  · rw [Instruction.toNat_encode, Instruction.code, Instruction.withByte]
    omega
  intro loaded m'
  have hstored : stored = .silent (m.storeDigits x) := execute_decimal h
  have hloaded : loaded = .silent (((m.storeDigits x).loadRegisters 2).advanceIndex 3) := by
    rw [← execute_restore_storeDigits h]
    exact congrArg (fun o : Outcome => o.machine.execute 0xF265) hstored
  have hm' : m' = ((m.storeDigits x).loadRegisters 2).advanceIndex 3 :=
    congrArg Outcome.machine hloaded
  clear_value stored loaded m'
  subst hstored hloaded hm'
  have hlt {j : Fin 16} (hj : j ≤ 2) : j.val < (digits (m.v.get x)).length := Nat.lt_succ_of_le hj
  refine ⟨?_, ?_, ?_, ?_, ?_, ?_, ?_, ?_⟩
  · rw [Outcome.machine_silent, storeDigits]
  · rw [Outcome.machine_silent, advanceIndex, loadRegisters]
  · intro j hj
    rw [v_advanceIndex, get_loadRegisters_storeDigits (hlt hj) h]
    exact digits_le (List.getElem_mem _)
  · -- `VX` has been read before, so it may be one of the three registers
    rw [v_advanceIndex, get_loadRegisters_storeDigits (hlt (by decide)) h,
      get_loadRegisters_storeDigits (hlt (by decide)) h,
      get_loadRegisters_storeDigits (hlt (by decide)) h]
    exact value_digits (m.v.get x)
  · intro j hj
    rw [v_advanceIndex, get_loadRegisters, if_neg (Fin.not_le.2 hj), storeDigits]
  · intro a ha hb
    rw [memory_advanceIndex, memory_loadRegisters, read_storeDigits_of_outside ha hb]
  · intro j hj
    rw [memory_advanceIndex, memory_loadRegisters, v_advanceIndex, read_storeDigits (hlt hj) h,
      get_loadRegisters_storeDigits (hlt hj) h]
  · rw [toNat_advanceIndex, index_loadRegisters, index_storeDigits]

/-- `V2` is the number and receives its last digit, in the last three bytes of memory. One
    byte further on there is no room for the digits. -/
theorem decimal_restore_digits_lastByte :
    let m : Machine := { create ⟨0, 0⟩ .halt with
      memory := .zero
      index := 0xFFD
      v := .replicate 16 254 }
    let past : Machine := { m with index := 0xFFE }
    let loaded := ((m.execute 0xF233).machine.execute 0xF265).machine
    let failed := (past.execute 0xF233).machine
    m.index.toNat ≤ 0xFFD ∧ 0xFFE ≤ past.index.toNat ∧
      ((loaded.v.get 0).toNat, (loaded.v.get 1).toNat, (loaded.v.get 2).toNat) = (2, 5, 4) ∧
      loaded.v.get 3 = 254 ∧ loaded.index.toNat = 0 ∧ loaded.fault = none ∧
      failed.fault = some .memoryOutOfRange ∧ failed.memory = .zero := by
  intro m past loaded failed
  have hword : (Instruction.decimal 2).encode = 0xF233 := by decide
  have hin : m.index.toNat ≤ 0xFFD := by decide
  have hout : 0xFFE ≤ past.index.toNat := by decide
  have hsplit := (decimal_restore_digits m 2).2.1 hin
  have hfailed := (decimal_restore_digits past 2).2.2 hout
  rw [hword] at hsplit hfailed
  obtain ⟨hstored, hloaded, hle, hvalue, hkept, -, -, hindex⟩ := hsplit
  -- the digits are at most nine and make up 254, so they can be no others
  have hle0 : (loaded.v.get 0).toNat ≤ 9 := hle 0 (by decide)
  have hle1 : (loaded.v.get 1).toNat ≤ 9 := hle 1 (by decide)
  have hle2 : (loaded.v.get 2).toNat ≤ 9 := hle 2 (by decide)
  have hsum : 100 * (loaded.v.get 0).toNat + 10 * (loaded.v.get 1).toNat + (loaded.v.get 2).toNat =
    254 := hvalue
  have hloadedFault := congrArg (fun o : Outcome => o.machine.fault) hloaded
  have hstoredFault := congrArg (fun o : Outcome => o.machine.fault) hstored
  refine ⟨hin, hout, ?_, hkept 3 (by decide), hindex.trans (Nat.mod_self 4096), ?_, ?_, ?_⟩
  · rw [Prod.mk.injEq, Prod.mk.injEq]
    omega
  · exact hloadedFault.trans hstoredFault
  · exact congrArg (fun o : Outcome => o.machine.fault) hfailed
  · exact congrArg (fun o : Outcome => o.machine.memory) hfailed

end Chip8.Machine
