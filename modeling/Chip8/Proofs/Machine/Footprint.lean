import Chip8.Proofs.Machine.Policy
import Mathlib.Data.Set.Insert

/-!
# What a word may change

The state of a machine is made of parts: each address of memory and each register
is one, and so is each of the other fields (`Part`). `Machine.writes` lists the
parts that an instruction writes when it goes on, and `Machine.Touches` those that
executing a word may change. All other parts stay as they are
(`execute_same`).
-/

namespace Chip8

/-- A part of the state of a machine. -/
inductive Part where
  | rng
  | memory (a : Fin 4096)
  | pc
  | display
  | stack
  | delayTimer
  | soundTimer
  | soundEvent
  | keypad
  | register (x : Fin 16)
  | index
  | status
  | fault
  | faultWord
  | policy
deriving DecidableEq

/-- The `n` bytes of memory from the address `a` on. -/
def Part.bytes (a n : Nat) : Set Part :=
  {p | ∃ b : Fin 4096, p = .memory b ∧ a ≤ b ∧ b < a + n}

/-- A part of the state is the same in `m'` as in `m`. -/
def Part.Same (m m' : Machine) : Part → Prop
  | rng => m'.rng = m.rng
  | memory a => m'.memory.read a = m.memory.read a
  | pc => m'.pc = m.pc
  | display => m'.display = m.display
  | stack => m'.stack = m.stack
  | delayTimer => m'.delayTimer = m.delayTimer
  | soundTimer => m'.soundTimer = m.soundTimer
  | soundEvent => m'.soundEvent = m.soundEvent
  | keypad => m'.keypad = m.keypad
  | register x => m'.v.get x = m.v.get x
  | index => m'.index = m.index
  | status => m'.status = m.status
  | fault => m'.fault = m.fault
  | faultWord => m'.faultWord = m.faultWord
  | policy => m'.policy = m.policy

/-- Whether an operation sets the flag: `8XY4` to `8XY7` and `8XYE` do. -/
def Alu.setsFlag : Alu → Bool
  | copy | or | and | xor => false
  | add | sub | shiftRight | subFrom | shiftLeft => true

theorem Part.Same.trans {m m' m'' : Machine} {p : Part} (h : p.Same m m') (h' : p.Same m' m'') :
    p.Same m m'' := by
  cases p <;> exact Eq.trans h' h

namespace Machine

variable {m m' m'' : Machine} {s t : Set Part} {i : Instruction} {w : UInt16} {f : Fault}

/-- `m'` is the same as `m` outside the parts `s`. -/
def SameOff (s : Set Part) (m m' : Machine) : Prop :=
  ∀ p ∉ s, p.Same m m'

/-! ### Updates -/

/-- The parts are all of the state. -/
theorem sameOff_empty_iff : SameOff ∅ m m' ↔ m' = m := by
  constructor
  · intro h
    have hp : ∀ p : Part, p.Same m m' := fun p => h p id
    have hv : m'.v = m.v := Vector.ext fun x hx => hp (.register ⟨x, hx⟩)
    have hmem : m'.memory = m.memory := Memory.ext_read fun a ha => hp (.memory ⟨a, ha⟩)
    exact Machine.ext (hp .rng) hmem (hp .pc) (hp .display) (hp .stack) (hp .delayTimer)
      (hp .soundTimer) (hp .soundEvent) (hp .keypad) hv (hp .index) (hp .status) (hp .fault)
      (hp .faultWord) (hp .policy)
  · rintro rfl p -
    cases p <;> rfl

theorem SameOff.trans (h : SameOff s m m') (h' : SameOff t m' m'') : SameOff (s ∪ t) m m'' := by
  intro p hp
  rw [Set.mem_union, not_or] at hp
  exact (h p hp.1).trans (h' p hp.2)

theorem SameOff.mono (h : SameOff s m m') (hst : s ⊆ t) : SameOff t m m' :=
  fun p hp => h p fun hs => hp (hst hs)

theorem sameOff_v {v : Vector UInt8 16} (h : ∀ x, .register x ∉ s → v.get x = m.v.get x) :
    SameOff s m { m with v := v } := by
  intro p hp
  cases p with
  | register x => exact h x hp
  | _ => rfl

theorem sameOff_memory {memory : Memory}
    (h : ∀ a : Fin 4096, .memory a ∉ s → memory.read a = m.memory.read a) :
    SameOff s m { m with memory := memory } := by
  intro p hp
  cases p with
  | memory a => exact h a hp
  | _ => rfl

theorem sameOff_setV (x : Fin 16) (b : UInt8) : SameOff {.register x} m (m.setV x b) := by
  refine sameOff_v fun y hy => Vector.getElem_set_ne x.isLt y.isLt fun h => hy ?_
  exact congrArg Part.register (Fin.ext h.symm)

theorem sameOff_loadRegisters (x : Fin 16) :
    SameOff {p | ∃ y ≤ x, p = .register y} m (m.loadRegisters x) := by
  refine sameOff_v fun y hy => ?_
  have hyx : ¬ y ≤ x := fun h => hy ⟨y, h, rfl⟩
  exact (Vector.getElem_ofFn y.isLt).trans (if_neg hyx)

theorem sameOff_writeAll (a : Nat) {n : Nat} {l : List UInt8} (hl : l.length = n) :
    SameOff (Part.bytes a n) m { m with memory := m.memory.writeAll a l } := by
  refine sameOff_memory fun b hb => Memory.read_writeAll_of_outside l b.isLt ?_ m.memory
  have hb : ¬ (a ≤ b.val ∧ b.val < a + n) := fun h => hb ⟨b, rfl, h⟩
  omega

theorem sameOff_rng (k : Threefry.Pair) : SameOff {.rng} m { m with rng := k } := by
  intro p hp
  cases p with
  | rng => exact absurd rfl hp
  | _ => rfl

theorem sameOff_pc (a : UInt16) : SameOff {.pc} m { m with pc := a } := by
  intro p hp
  cases p with
  | pc => exact absurd rfl hp
  | _ => rfl

theorem sameOff_stack (s : ReturnStack) : SameOff {.stack} m { m with stack := s } := by
  intro p hp
  cases p with
  | stack => exact absurd rfl hp
  | _ => rfl

theorem sameOff_display (d : Screen) : SameOff {.display} m { m with display := d } := by
  intro p hp
  cases p with
  | display => exact absurd rfl hp
  | _ => rfl

theorem sameOff_delayTimer (b : UInt8) : SameOff {.delayTimer} m { m with delayTimer := b } := by
  intro p hp
  cases p with
  | delayTimer => exact absurd rfl hp
  | _ => rfl

theorem sameOff_soundTimer (b : UInt8) : SameOff {.soundTimer} m { m with soundTimer := b } := by
  intro p hp
  cases p with
  | soundTimer => exact absurd rfl hp
  | _ => rfl

theorem sameOff_index (a : UInt16) : SameOff {.index} m { m with index := a } := by
  intro p hp
  cases p with
  | index => exact absurd rfl hp
  | _ => rfl

theorem sameOff_skipIf (c : Bool) : SameOff (if c then {.pc} else ∅) m (m.skipIf c) := by
  cases c with
  | false => exact sameOff_empty_iff.2 rfl
  | true => exact sameOff_pc _

/-! ### Instructions -/

/-- The parts that an instruction writes when it goes on. -/
def writes (m : Machine) : Instruction → Set Part
  | .clear => {.display}
  | .ret => {.pc, .stack}
  | .jump _ => {.pc}
  | .call _ => {.pc, .stack}
  | .load x _ => {.register x}
  | .addImm x _ => {.register x}
  | .alu op x _ => if op.setsFlag then {.register x, .register (.last 15)} else {.register x}
  | .loadIndex _ => {.index}
  | .jumpOffset _ => {.pc}
  | .random x _ => {.rng, .register x}
  | .draw _ _ _ => {.display, .register (.last 15)}
  | .readDelay x => {.register x}
  | .waitKey x => {.register x}
  | .setDelay _ => {.delayTimer}
  | .setSound _ => {.soundTimer}
  | .addIndex _ => {.index, .register (.last 15)}
  | .glyph _ => {.index}
  | .decimal _ => Part.bytes m.index.toNat 3
  | .store x => Part.bytes m.index.toNat (x + 1) ∪ {.index}
  | .restore x => {p | ∃ y ≤ x, p = .register y} ∪ {.index}
  -- the others skip the next instruction, or not
  | i => if m.skips i then {.pc} else ∅

theorem sameOff_execAlu (op : Alu) (x y : Fin 16) :
    SameOff (m.writes (.alu op x y)) m (m.execAlu op x y) := by
  cases op with
  | copy | or | and | xor => exact sameOff_setV x _
  | add | sub | shiftRight | subFrom | shiftLeft =>
    exact (sameOff_setV x _).trans (sameOff_setV (.last 15) _)

theorem exec_sameOff (hf : m.failure? i = none) (hw : m.waits i = false) :
    SameOff (m.writes i) m (m.exec i) := by
  cases i with
  | clear => exact sameOff_display _
  | ret =>
    obtain ⟨a, s, -, he⟩ := exec_ret hf
    rw [he]
    exact (sameOff_pc a).trans (sameOff_stack s)
  | jump a | jumpOffset a => exact sameOff_pc _
  | call a =>
    obtain ⟨s, -, he⟩ := exec_call hf
    rw [he]
    exact (sameOff_pc (.ofNat a)).trans (sameOff_stack s)
  | skipEq x k | skipNe x k | skipEqReg x y | skipNeReg x y | skipKey x | skipNoKey x =>
    exact sameOff_skipIf _
  | load x k | addImm x k | readDelay x => exact sameOff_setV x _
  | waitKey x =>
    obtain ⟨k, he⟩ := exec_waitKey hw
    rw [he]
    exact sameOff_setV x _
  | alu op x y => exact sameOff_execAlu op x y
  | loadIndex a | glyph x => exact sameOff_index _
  | random x k => exact (sameOff_rng _).trans (sameOff_setV x _)
  | setDelay x => exact sameOff_delayTimer _
  | setSound x => exact sameOff_soundTimer _
  | addIndex x => exact (sameOff_index _).trans (sameOff_setV (.last 15) _)
  -- these touch memory, and the range has been checked
  | draw x y n =>
    rw [exec, if_pos (pastEnd?_eq_none hf)]
    exact (sameOff_display _).trans (sameOff_setV (.last 15) _)
  | decimal x =>
    have hn := pastEnd?_eq_none hf
    rw [exec, if_pos (by omega)]
    exact sameOff_writeAll _ rfl
  | store x =>
    have hn := pastEnd?_eq_none hf
    have hl : (m.v.toList.take (x + 1)).length = x + 1 := by
      rw [List.length_take, Vector.length_toList]
      exact Nat.min_eq_left x.isLt
    rw [exec, if_pos (by omega)]
    exact (sameOff_writeAll _ hl).trans (sameOff_index _)
  | restore x =>
    have hn := pastEnd?_eq_none hf
    rw [exec, if_pos (by omega)]
    exact (sameOff_loadRegisters x).trans (sameOff_index _)

/-- No instruction writes the keys, the record of the sound, or the policy. -/
theorem notMem_of_mem_writes {p : Part} (h : p ∈ m.writes i) :
    p ∉ [Part.keypad, .soundEvent, .policy] := by
  cases i with
  | clear | jump a | load x k | addImm x k | loadIndex a | jumpOffset a | readDelay x | waitKey x
  | setDelay x | setSound x | glyph x =>
    obtain rfl := h
    simp
  | ret | call a | random x k | draw x y n | addIndex x => obtain rfl | rfl := h <;> simp
  | alu op x y =>
    rw [writes] at h
    split_ifs at h
    · obtain rfl | rfl := h <;> simp
    · obtain rfl := h
      simp
  | skipEq x k | skipNe x k | skipEqReg x y | skipNeReg x y | skipKey x | skipNoKey x =>
    dsimp only [writes] at h
    split_ifs at h
    · obtain rfl := h
      simp
    · cases h
  | decimal x =>
    obtain ⟨b, rfl, -⟩ := h
    simp
  | store x => obtain ⟨b, rfl, -⟩ | rfl := h <;> simp
  | restore x => obtain ⟨y, -, rfl⟩ | rfl := h <;> simp

theorem delayTimer_mem_writes_iff : .delayTimer ∈ m.writes i ↔ ∃ x, i = .setDelay x := by
  cases i with
  | alu op x y => cases op <;> simp [writes, Alu.setsFlag]
  | _ => simp [writes, Part.bytes]

theorem soundTimer_mem_writes_iff : .soundTimer ∈ m.writes i ↔ ∃ x, i = .setSound x := by
  cases i with
  | alu op x y => cases op <;> simp [writes, Alu.setsFlag]
  | _ => simp [writes, Part.bytes]

/-! ### Words -/

/-- Executing the word `w` stops the machine, for the cause `f`. -/
inductive Stops (m : Machine) : UInt16 → Fault → Prop
  | failure {i : Instruction} {f : Fault} (h : m.failure? i = some f) : Stops m i.encode f
  | unknown {w : UInt16} (h : ¬ Form.Defined w) (hp : m.policy = .halt) :
      Stops m w .unknownOpcode

/-- Executing the word `w` blocks the machine. -/
inductive Waits (m : Machine) : UInt16 → Prop
  | key (x : Fin 16) (h : ∀ k : Fin 16, m.keypad.get k = false) :
      Waits m (Instruction.waitKey x).encode
  | unknown {w : UInt16} (h : ¬ Form.Defined w) (hp : m.policy = .stall) : Waits m w

/-- The parts that executing the word `w` may change. -/
inductive Touches (m : Machine) (w : UInt16) (p : Part) : Prop
  | stop {f : Fault} (h : m.Stops w f) (hp : p ∈ [Part.pc, .status, .fault, .faultWord])
  | wait (h : m.Waits w) (hp : p ∈ [Part.pc, .status])
  | write {i : Instruction} (hi : w = i.encode) (hf : m.failure? i = none)
      (hw : m.waits i = false) (hp : p ∈ m.writes i)

theorem waits_waitKey_iff {x : Fin 16} :
    m.waits (.waitKey x) = true ↔ ∀ k : Fin 16, m.keypad.get k = false := by
  rw [waits, Option.isNone_iff_eq_none, highestKey?, List.find?_eq_none]
  simp only [List.mem_reverse, List.mem_finRange, true_imp_iff, Bool.not_eq_true]
  rfl

/-- Only the instruction that reads a key waits. -/
theorem waits_encode (h : m.waits i = true) : m.Waits i.encode := by
  cases i with
  | waitKey x => exact .key x (waits_waitKey_iff.1 h)
  | _ => cases h

theorem execute_of_stops (h : m.Stops w f) : (m.execute w).machine = m.fail f w := by
  cases h with
  | failure h => rw [execute_encode, Outcome.machine_silent, exec_of_failure? h]
  | unknown h hp => rw [execute_of_not_defined h, executeUnknown_halt hp, Outcome.machine_silent]

theorem execute_of_waits (h : m.Waits w) : (m.execute w).machine = m.block := by
  cases h with
  | key x h =>
    rw [execute_encode, Outcome.machine_silent, exec_of_waits (waits_waitKey_iff.2 h)]
  | unknown h hp => rw [execute_of_not_defined h, executeUnknown_stall hp]

theorem sameOff_fail : SameOff {p | p ∈ [Part.pc, .status, .fault, .faultWord]} m (m.fail f w) := by
  intro p hp
  cases p with
  | pc | status | fault | faultWord => exact absurd (by simp) hp
  | _ => rfl

theorem sameOff_block : SameOff {p | p ∈ [Part.pc, .status]} m m.block := by
  intro p hp
  cases p with
  | pc | status => exact absurd (by simp) hp
  | _ => rfl

theorem Stops.sameOff (h : m.Stops w f) :
    SameOff {p | m.Touches w p} m (m.execute w).machine := by
  rw [execute_of_stops h]
  exact sameOff_fail.mono fun p hp => .stop h hp

theorem Waits.sameOff (h : m.Waits w) :
    SameOff {p | m.Touches w p} m (m.execute w).machine := by
  rw [execute_of_waits h]
  exact sameOff_block.mono fun p hp => .wait h hp

theorem execute_sameOff (m : Machine) (w : UInt16) :
    SameOff {p | m.Touches w p} m (m.execute w).machine := by
  by_cases hd : Form.Defined w
  · obtain ⟨i, rfl⟩ := Form.defined_iff.1 hd
    cases hf : m.failure? i with
    | some f => exact (Stops.failure hf).sameOff
    | none =>
      cases hw : m.waits i with
      | true => exact (waits_encode hw).sameOff
      | false =>
        rw [execute_encode, Outcome.machine_silent]
        exact (exec_sameOff hf hw).mono fun p hp => .write rfl hf hw hp
  · cases hp : m.policy with
    | halt => exact (Stops.unknown hd hp).sameOff
    | skip =>
      rw [execute_of_not_defined hd, executeUnknown_skip hp]
      exact (sameOff_empty_iff.2 rfl).mono (Set.empty_subset _)
    | stall => exact (Waits.unknown hd hp).sameOff

/-- Executing a word changes no part of the state but those that it touches, which
    never are the keys, the record of the sound, or the policy. A word that stops or
    blocks the machine goes back onto itself and changes nothing else but the records
    of the status and of the fault. -/
theorem execute_same (m : Machine) (w : UInt16) :
    (∀ p, ¬ m.Touches w p → p.Same m (m.execute w).machine) ∧
      (∀ p, m.Touches w p → p ∉ [Part.keypad, .soundEvent, .policy]) ∧
      (∀ f, m.Stops w f → (m.execute w).machine =
        { m with pc := m.pc - 2, status := .faulted, fault := some f, faultWord := w }) ∧
      (m.Waits w → (m.execute w).machine = { m with pc := m.pc - 2, status := .blocked }) := by
  refine ⟨execute_sameOff m w, ?_, fun f => execute_of_stops, execute_of_waits⟩
  intro p ht
  cases ht with
  | stop _ hp =>
    have h : ∀ p ∈ [Part.pc, .status, .fault, .faultWord],
      p ∉ [Part.keypad, .soundEvent, .policy] := by decide
    exact h p hp
  | wait _ hp =>
    have h : ∀ p ∈ [Part.pc, .status], p ∉ [Part.keypad, .soundEvent, .policy] := by decide
    exact h p hp
  | write _ _ _ hp => exact notMem_of_mem_writes hp

end Machine

end Chip8
