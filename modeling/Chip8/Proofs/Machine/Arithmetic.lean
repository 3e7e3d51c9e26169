import Chip8.Proofs.Machine.Policy

/-!
# Operations on registers

What the instructions `8XY0` to `8XY7` and `8XYE` do to the registers, in terms of
numbers: `Alu.value` is what an operation leaves in `VX`, and `Alu.carry` what it leaves
in the flag. Both are taken of what the two registers hold before the instruction. The
flag is written last, so it stays even if `VX` is the flag itself (`toNat_get_execAlu_flag`).

Hence an addition is undone by a subtraction, whose flag is the carry the other way
round (`execute_alu`).
-/

namespace Chip8

namespace Alu

/-- The number that an operation leaves in `VX`, of the numbers `a` in `VX` and `b` in
    `VY`. -/
def value (a b : Nat) : Alu → Nat
  | copy => b
  | or => a ||| b
  | and => a &&& b
  | xor => a ^^^ b
  | add => (a + b) % 256
  | sub => (((a : Int) - b) % 256).toNat
  | shiftRight => a / 2
  | subFrom => (((b : Int) - a) % 256).toNat
  | shiftLeft => 2 * a % 256

/-- The number that an operation leaves in the flag, if it sets the flag. -/
def carry (a b : Nat) : Alu → Option Nat
  | copy | or | and | xor => none
  | add => some (if 255 < a + b then 1 else 0)
  | sub => some (if b ≤ a then 1 else 0)
  | shiftRight => some (a % 2)
  | subFrom => some (if a ≤ b then 1 else 0)
  | shiftLeft => some (a / 128)

theorem toNat_result (op : Alu) (a b : UInt8) :
    (op.result a b).toNat = op.value a.toNat b.toNat := by
  have ha := a.toNat_lt
  have hb := b.toNat_lt
  cases op with
  | copy => rfl
  | or => exact UInt8.toNat_or a b
  | and => exact UInt8.toNat_and a b
  | xor => exact UInt8.toNat_xor a b
  | add => exact UInt8.toNat_add a b
  | sub =>
    rw [result, value, UInt8.toNat_sub]
    omega
  | subFrom =>
    rw [result, value, UInt8.toNat_sub]
    omega
  | shiftRight =>
    rw [result, value, UInt8.toNat_shiftRight]
    exact Nat.shiftRight_eq_div_pow a.toNat 1
  | shiftLeft =>
    rw [result, value, UInt8.toNat_shiftLeft]
    exact congrArg (· % 256) ((Nat.shiftLeft_eq a.toNat 1).trans (Nat.mul_comm _ _))

theorem flag?_map_toNat (op : Alu) (a b : UInt8) :
    (op.flag? a b).map Bool.toNat = op.carry a.toNat b.toNat := by
  have ha := a.toNat_lt
  have htoNat (p : Prop) [Decidable p] : (decide p).toNat = if p then 1 else 0 :=
    Bool.cond_decide p 1 0
  cases op with
  | copy | or | and | xor => rfl
  | add | sub | subFrom => exact congrArg some (htoNat _)
  | shiftRight =>
    refine congrArg some ((htoNat _).trans ?_)
    split_ifs <;> omega
  | shiftLeft =>
    have hbit : 128 ≤ a ↔ 128 ≤ a.toNat := UInt8.le_iff_toNat_le
    refine congrArg some ((htoNat _).trans ?_)
    split_ifs with h
    · rw [hbit] at h
      omega
    · rw [hbit] at h
      omega

end Alu

namespace Machine

variable {op : Alu} {x y : Fin 16}

theorem toNat_toUInt8 (c : Bool) : c.toUInt8.toNat = c.toNat := by
  cases c <;> rfl

/-- The flag is written last. -/
theorem toNat_get_execAlu_flag (m : Machine) {op : Alu} {x y : Fin 16} {c : Nat}
    (h : op.carry (m.v.get x).toNat (m.v.get y).toNat = some c) :
    ((m.execAlu op x y).v.get 15).toNat = c := by
  rw [← Alu.flag?_map_toNat] at h
  obtain ⟨d, hd, rfl⟩ := Option.map_eq_some_iff.1 h
  simp only [execAlu, hd]
  rw [get_setFlag, if_pos rfl, toNat_toUInt8]

/-- All other registers, and the flag if it is not set. -/
theorem toNat_get_execAlu (m : Machine) {op : Alu} {x y z : Fin 16}
    (h : z ≠ 15 ∨ op.carry (m.v.get x).toNat (m.v.get y).toNat = none) :
    ((m.execAlu op x y).v.get z).toNat =
      if z = x then op.value (m.v.get x).toNat (m.v.get y).toNat else (m.v.get z).toNat := by
  rw [← Alu.flag?_map_toNat, Option.map_eq_none_iff] at h
  rw [← Alu.toNat_result, ← apply_ite UInt8.toNat]
  simp only [execAlu]
  cases hd : op.flag? (m.v.get x) (m.v.get y) with
  | none => rw [get_setV]
  | some d =>
    have hz : z ≠ 15 := h.resolve_right (by simp [hd])
    rw [get_setFlag, if_neg hz, get_setV]

theorem machine_execute_alu (m : Machine) (op : Alu) (x y : Fin 16) :
    (m.execute (Instruction.alu op x y).encode).machine = m.execAlu op x y := by
  rw [execute_encode, Outcome.machine_silent, exec]

theorem execAlu_eq (m : Machine) (op : Alu) (x y : Fin 16) :
    m.execAlu op x y = { m with v := (m.execAlu op x y).v } := by
  cases op <;> rfl

theorem toNat_encode_alu (op : Alu) (x y : Fin 16) :
    (Instruction.alu op x y).encode.toNat = 0x8000 + 256 * x + 16 * y + op.nibble := by
  rw [Instruction.toNat_encode, Instruction.code, Instruction.nibbles]
  omega

/-- An addition followed by a subtraction of the same register. -/
theorem execAlu_add_sub (m : Machine) (hxy : x ≠ y) (hx : x ≠ 15) (hy : y ≠ 15) :
    ((m.execAlu .add x y).execAlu .sub x y).v.get x = m.v.get x ∧
      (((m.execAlu .add x y).execAlu .sub x y).v.get 15).toNat =
        1 - ((m.execAlu .add x y).v.get 15).toNat := by
  have ha := (m.v.get x).toNat_lt
  have hb := (m.v.get y).toNat_lt
  -- the registers that the subtraction finds
  have hsum : ((m.execAlu .add x y).v.get x).toNat =
      ((m.v.get x).toNat + (m.v.get y).toNat) % 256 := by
    rw [toNat_get_execAlu m (.inl hx), if_pos rfl, Alu.value]
  have hkept : ((m.execAlu .add x y).v.get y).toNat = (m.v.get y).toNat := by
    rw [toNat_get_execAlu m (.inl hy), if_neg hxy.symm]
  constructor
  · rw [← UInt8.toNat_inj, toNat_get_execAlu _ (.inl hx), if_pos rfl, Alu.value, hsum, hkept]
    omega
  · rw [toNat_get_execAlu_flag _ rfl, toNat_get_execAlu_flag _ rfl, hsum, hkept]
    split_ifs <;> omega

/-- The instruction `8XY0` to `8XY7` or `8XYE` puts the value of its operation on the old
    `VX` and `VY` into `VX` and then, if it sets the flag, the carry into `VF`, whichever
    of the three registers are the same. It leaves the other registers and all else
    alone. So `8XY5` undoes `8XY4` if the registers differ, and leaves one minus the
    carry of the addition in `VF`. -/
theorem execute_alu (m : Machine) (x y : Fin 16) :
    (∀ op : Alu,
        let a := (m.v.get x).toNat
        let b := (m.v.get y).toNat
        let m' := (m.execute (Instruction.alu op x y).encode).machine
        (Instruction.alu op x y).encode.toNat = 0x8000 + 256 * x + 16 * y + op.nibble ∧
          m' = { m with v := m'.v } ∧
          (∀ c, op.carry a b = some c → (m'.v.get 15).toNat = c) ∧
          ∀ z, z ≠ 15 ∨ op.carry a b = none →
            (m'.v.get z).toNat = if z = x then op.value a b else (m.v.get z).toNat) ∧
      (x ≠ y → x ≠ 15 → y ≠ 15 →
        let added := (m.execute (Instruction.alu .add x y).encode).machine
        let restored := (added.execute (Instruction.alu .sub x y).encode).machine
        restored.v.get x = m.v.get x ∧
          (restored.v.get 15).toNat = 1 - (added.v.get 15).toNat) := by
  simp only [machine_execute_alu]
  refine ⟨fun op => ⟨toNat_encode_alu op x y, execAlu_eq m op x y, ?_, ?_⟩, ?_⟩
  · exact fun c => toNat_get_execAlu_flag m
  · exact fun z => toNat_get_execAlu m
  · exact execAlu_add_sub m

/-- The flag added to itself, and an addition with a carry that is undone. -/
theorem execute_alu_carry :
    let m := (((create ⟨0, 0⟩ .halt).setV 1 100).setV 2 200).setV 15 200
    let restored := ((m.execute 0x8124).machine.execute 0x8125).machine
    (m.execute 0x8FF4).machine.v.get 15 = 1 ∧
      (1 : Fin 16) ≠ 2 ∧ (1 : Fin 16) ≠ 15 ∧ (2 : Fin 16) ≠ 15 ∧
      restored.v.get 1 = 100 ∧ restored.v.get 15 = 0 := by
  intro m restored
  have hflag : (Instruction.alu .add 15 15).encode = 0x8FF4 := by decide
  have hadd : (Instruction.alu .add 1 2).encode = 0x8124 := by decide
  have hsub : (Instruction.alu .sub 1 2).encode = 0x8125 := by decide
  have hself := ((execute_alu m 15 15).1 .add).2.2.1 1 (by decide)
  have hcarry := ((execute_alu m 1 2).1 .add).2.2.1 1 (by decide)
  obtain ⟨hvalue, hborrow⟩ := (execute_alu m 1 2).2 (by decide) (by decide) (by decide)
  rw [hflag] at hself
  rw [hadd] at hcarry
  rw [hadd, hsub] at hvalue
  rw [hadd, hsub, hcarry] at hborrow
  refine ⟨?_, by decide, by decide, by decide, hvalue, ?_⟩
  · rw [← UInt8.toNat_inj]
    exact hself
  · rw [← UInt8.toNat_inj]
    exact hborrow

end Machine

end Chip8
