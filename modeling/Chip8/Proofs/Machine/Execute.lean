import Chip8.Machine.Execute
import Chip8.Proofs.ReturnStack
import Mathlib.Tactic.SplitIfs

/-!
# How an instruction ends

An instruction fails, waits or goes on. `Machine.failure?` says when it fails
and why: a return from an empty stack, a call with a full one, and an access
past the end of memory. `Machine.waits` says when it waits: for a key that is
not down.

* `exec_of_failure?`, `exec_of_waits`: an instruction that fails or waits does
  nothing but that;
* `exec_goesOn`: any other leaves the records of the status and of the fault
  alone and, unless it is a jump, a call or a return, goes on to the next
  instruction or, if it skips, to the one after.
-/

namespace Chip8

/-- Whether an instruction says itself where to go on: jumps, calls, returns. -/
def Instruction.transfers : Instruction → Bool
  | .jump _ | .call _ | .ret | .jumpOffset _ => true
  | _ => false

namespace Machine

variable {m m' : Machine} {i : Instruction}

/-- The fault of an access to the `n` bytes at the index register, if not all of
    them lie in memory. -/
def pastEnd? (m : Machine) (n : Nat) : Option Fault :=
  if Memory.size < m.index.toNat + n then some .memoryOutOfRange else none

/-- Why an instruction fails, if it does. -/
def failure? (m : Machine) : Instruction → Option Fault
  | .ret => if m.stack.pointer ≤ 0 then some .stackUnderflow else none
  | .call _ => if ReturnStack.capacity ≤ m.stack.pointer then some .stackOverflow else none
  | .draw _ _ n => m.pastEnd? n
  | .decimal _ => m.pastEnd? 3
  | .store x | .restore x => m.pastEnd? (x + 1)
  | _ => none

/-- Whether an instruction waits. -/
def waits (m : Machine) : Instruction → Bool
  | .waitKey _ => m.highestKey?.isNone
  | _ => false

/-- Whether an instruction skips the next one. -/
def skips (m : Machine) : Instruction → Bool
  | .skipEq x k => m.v.get x = k
  | .skipNe x k => m.v.get x ≠ k
  | .skipEqReg x y => m.v.get x = m.v.get y
  | .skipNeReg x y => m.v.get x ≠ m.v.get y
  | .skipKey x => m.keyDown x
  | .skipNoKey x => !m.keyDown x
  | _ => false

/-! ### Failing and waiting -/

theorem pastEnd?_eq_some {n : Nat} {f : Fault} (h : m.pastEnd? n = some f) :
    Memory.size < m.index.toNat + n ∧ f = .memoryOutOfRange := by
  rw [pastEnd?] at h
  split_ifs at h with hn
  exact ⟨hn, (Option.some.inj h).symm⟩

theorem pastEnd?_eq_none {n : Nat} (h : m.pastEnd? n = none) :
    m.index.toNat + n ≤ Memory.size := by
  rw [pastEnd?] at h
  split_ifs at h with hn
  omega

theorem failure?_mem {f : Fault} (h : m.failure? i = some f) :
    f ∈ [.stackOverflow, .stackUnderflow, .memoryOutOfRange] := by
  cases i with
  | ret | call a =>
    simp only [failure?] at h
    split_ifs at h
    cases h
    simp
  | draw x y n | decimal x | store x | restore x =>
    obtain ⟨-, rfl⟩ := pastEnd?_eq_some h
    simp
  | _ => cases h

/-- An instruction that fails goes back onto itself and stops the machine. -/
theorem exec_of_failure? {f : Fault} (h : m.failure? i = some f) :
    m.exec i = m.fail f i.encode := by
  -- each instruction has its own check of the range, which `pastEnd?` negates
  cases i with
  | ret =>
    simp only [failure?] at h
    split_ifs at h with hp
    cases h
    simp only [exec, ReturnStack.pop?_eq_none_iff.2 hp]
  | call a =>
    simp only [failure?] at h
    split_ifs at h with hp
    cases h
    simp only [exec, ReturnStack.push?_eq_none_iff.2 hp]
  | draw x y n =>
    obtain ⟨hn, rfl⟩ := pastEnd?_eq_some h
    exact if_neg (by omega)
  | decimal x | store x | restore x =>
    obtain ⟨hn, rfl⟩ := pastEnd?_eq_some h
    exact if_neg (by omega)
  | _ => cases h

/-- An instruction that waits goes back onto itself and blocks the machine. -/
theorem exec_of_waits (h : m.waits i = true) : m.exec i = m.block := by
  cases i with
  | waitKey x => simp only [exec, Option.isNone_iff_eq_none.1 h]
  | _ => cases h

/-! ### Going on -/

/-- The machine goes on with `m'` after the instruction `i`: the records of the
    status and of the fault are as they were, and so is the stack unless `i` is
    a jump, a call or a return; then `i` is followed by the next instruction or
    by the one after. The index register, if it changes, has twelve bits. -/
structure GoesOn (m : Machine) (i : Instruction) (m' : Machine) : Prop where
  status : m'.status = m.status
  fault : m'.fault = m.fault
  faultWord : m'.faultWord = m.faultWord
  policy : m'.policy = m.policy
  pc : i.transfers = false → m'.pc = if m.skips i then m.pc + 2 else m.pc
  stack : i.transfers = false → m'.stack = m.stack
  index : m'.index = m.index ∨ m'.index.toNat ≤ 0xFFF

theorem goesOn_skipIf (h : m.exec i = m.skipIf (m.skips i)) : GoesOn m i (m.exec i) := by
  rw [h, skipIf]
  split <;> exact ⟨rfl, rfl, rfl, rfl, fun _ => by simp [*], fun _ => rfl, .inl rfl⟩

theorem goesOn_execAlu (op : Alu) (x y : Fin 16) : GoesOn m (.alu op x y) (m.execAlu op x y) := by
  dsimp only [execAlu]
  cases op.flag? (m.v.get x) (m.v.get y) <;>
    exact ⟨rfl, rfl, rfl, rfl, fun _ => rfl, fun _ => rfl, .inl rfl⟩

theorem goesOn_draw (x y n : Fin 16) (s : Sprite) : GoesOn m (.draw x y n) (m.draw s) := by
  constructor <;> simp [draw, setFlag, setV, skips]

theorem exec_waitKey {x : Fin 16} (h : m.waits (.waitKey x) = false) :
    ∃ k : Fin 16, m.exec (.waitKey x) = m.setV x (.ofNat k) := by
  simp only [waits] at h
  simp only [exec]
  cases hk : m.highestKey? with
  | some k => exact ⟨k, rfl⟩
  | none => simp [hk] at h

theorem advanceIndex_le (n : Nat) : (m.advanceIndex n).index.toNat ≤ 0xFFF := by
  have h : (m.index.toNat + n) % 4096 < 65536 := by omega
  rw [advanceIndex, UInt16.toNat_ofNat_of_lt' h]
  omega

theorem toNat_address (a : Fin 4096) : (UInt16.ofNat a).toNat = a :=
  UInt16.toNat_ofNat_of_lt' (Nat.lt_trans a.isLt (by decide))

theorem toNat_offset (a : Fin 4096) (b : UInt8) :
    (UInt16.ofNat (a + b.toNat)).toNat = a + b.toNat := by
  have h : a.val + b.toNat < 65536 := by
    have := b.toNat_lt
    omega
  rw [UInt16.toNat_ofNat_of_lt' h]

theorem glyph_le (d : UInt8) : (UInt16.ofNat (Font.address d.toNat)).toNat ≤ 0xFFF := by
  have hd := d.toNat_lt
  have h : Font.address d.toNat ≤ 0xFFF := by
    simp only [Font.address, Font.start, Font.glyphSize]
    omega
  rw [UInt16.toNat_ofNat_of_lt' (Nat.lt_of_le_of_lt h (by decide))]
  exact h

theorem exec_ret (h : m.failure? .ret = none) :
    ∃ a s, m.stack.pop? = some (a, s) ∧ m.exec .ret = { m with pc := a, stack := s } := by
  simp only [failure?] at h
  split_ifs at h with hp
  simp only [exec]
  cases hs : m.stack.pop? with
  | some r => exact ⟨r.1, r.2, rfl, rfl⟩
  | none => exact absurd (ReturnStack.pop?_eq_none_iff.1 hs) hp

theorem exec_call {a : Fin 4096} (h : m.failure? (.call a) = none) :
    ∃ s, m.stack.push? m.pc.toNat = some s ∧
      m.exec (.call a) = { m with pc := .ofNat a, stack := s } := by
  simp only [failure?] at h
  split_ifs at h with hp
  simp only [exec]
  cases hs : m.stack.push? m.pc.toNat with
  | some s => exact ⟨s, rfl, rfl⟩
  | none => exact absurd (ReturnStack.push?_eq_none_iff.1 hs) hp

/-- An instruction that neither fails nor waits goes on. -/
theorem exec_goesOn (hf : m.failure? i = none) (hw : m.waits i = false) :
    GoesOn m i (m.exec i) := by
  cases i with
  -- of jumps, calls and returns it is not said where they lead
  | ret =>
    obtain ⟨a, s, -, he⟩ := exec_ret hf
    rw [he]
    exact ⟨rfl, rfl, rfl, rfl, nofun, nofun, .inl rfl⟩
  | call a =>
    obtain ⟨s, -, he⟩ := exec_call hf
    rw [he]
    exact ⟨rfl, rfl, rfl, rfl, nofun, nofun, .inl rfl⟩
  | jump a | jumpOffset a => exact ⟨rfl, rfl, rfl, rfl, nofun, nofun, .inl rfl⟩
  | skipEq x k | skipNe x k | skipEqReg x y | skipNeReg x y | skipKey x | skipNoKey x =>
    exact goesOn_skipIf rfl
  | alu op x y => exact goesOn_execAlu op x y
  | waitKey x =>
    obtain ⟨k, hk⟩ := exec_waitKey hw
    rw [hk]
    exact ⟨rfl, rfl, rfl, rfl, fun _ => rfl, fun _ => rfl, .inl rfl⟩
  -- these touch memory, and the range has been checked
  | draw x y n =>
    have hn := pastEnd?_eq_none hf
    rw [exec, if_pos hn]
    exact goesOn_draw x y n _
  | decimal x =>
    have hn := pastEnd?_eq_none hf
    rw [exec, if_pos (by omega)]
    constructor <;> simp [storeDigits, skips]
  | store x | restore x =>
    have hn := pastEnd?_eq_none hf
    rw [exec, if_pos (by omega)]
    refine ⟨?_, ?_, ?_, ?_, ?_, ?_, .inr (advanceIndex_le _)⟩ <;>
      simp [storeRegisters, loadRegisters, advanceIndex, skips]
  | addIndex x =>
    exact ⟨rfl, rfl, rfl, rfl, fun _ => rfl, fun _ => rfl, .inr (advanceIndex_le _)⟩
  | loadIndex a =>
    have ha : (m.exec (.loadIndex a)).index.toNat = a := toNat_address a
    exact ⟨rfl, rfl, rfl, rfl, fun _ => rfl, fun _ => rfl, .inr (by omega)⟩
  | glyph x => exact ⟨rfl, rfl, rfl, rfl, fun _ => rfl, fun _ => rfl, .inr (glyph_le _)⟩
  | _ => exact ⟨rfl, rfl, rfl, rfl, fun _ => rfl, fun _ => rfl, .inl rfl⟩

end Machine

end Chip8
