import Chip8.Machine.Step
import Chip8.Proofs.Instruction.Encoding
import Chip8.Proofs.Machine.Execute
import Mathlib.Tactic.SplitIfs

/-!
# What a step does

A step of a machine that runs either stops it, or waits, or advances
(`step_cases`). `Machine.stop?` says when it stops, with which fault and on
which word, and `Machine.stays` when it waits.

A step that stops or waits undoes the fetch and changes nothing but the records
of the status and of the fault (`Held`), and it is a fixed point: any number of
further steps changes nothing more (`step_advances_or_holds`).
-/

namespace Chip8.Machine

variable {m m' : Machine}

/-! ### The next word -/

/-- The word at the address of the next instruction. -/
def word (m : Machine) : UInt16 :=
  m.fetch.1

/-- The next instruction, if the next word encodes one. -/
def next? (m : Machine) : Option Instruction :=
  Instruction.ofWord? m.word

/-- The machine moved past the next word. -/
def fetched (m : Machine) : Machine :=
  { m with status := .advanced, pc := m.pc + 2 }

/-- Whether there is room for a word at the address of the next instruction. -/
def inReach (m : Machine) : Prop :=
  m.pc.toNat + 2 ≤ Memory.size

instance : Decidable m.inReach :=
  inferInstanceAs (Decidable (_ ≤ _))

/-- The fault with which the next step stops, and the word on which it does. -/
def stop? (m : Machine) : Option (Fault × UInt16) :=
  if m.inReach then
    match m.next? with
    | some i => (m.failure? i).map (·, m.word)
    | none => if m.policy = .halt then some (.unknownOpcode, m.word) else none
  else some (.memoryOutOfRange, 0)

/-- Whether the next step waits, unless it stops. -/
def stays (m : Machine) : Bool :=
  match m.next? with
  | some i => m.waits i
  | none => m.policy = .stall

/-- What a step of a machine that runs does. -/
inductive Step (m : Machine) : Machine → Prop
  | stop {f : Fault} {w : UInt16} : m.stop? = some (f, w) → Step m (m.signal (some f) w)
  | wait : m.stop? = none → m.stays = true → Step m { m with status := .blocked }
  | exec {i : Instruction} : m.stop? = none → m.stays = false → m.next? = some i →
      Step m (m.fetched.exec i)
  | pass : m.stop? = none → m.stays = false → m.next? = none → m.policy = .skip → Step m m.fetched

theorem halted_eq_false_iff : m.halted = false ↔ m.fault = none :=
  Option.isSome_eq_false_iff.trans Option.isNone_iff_eq_none

theorem rewind_fetched : m.fetched.rewind = { m with status := .advanced } := by
  have h : m.pc + 2 - 2 = m.pc := by simp
  simp only [rewind, fetched, h]

theorem fail_fetched (f : Fault) (w : UInt16) : m.fetched.fail f w = m.signal (some f) w := by
  rw [fail, rewind_fetched]
  rfl

theorem block_fetched : m.fetched.block = { m with status := .blocked } := by
  rw [block, rewind_fetched]

theorem step_of_inReach (h : m.fault = none) (hr : m.inReach) :
    m.step = m.fetched.execute m.word := by
  rw [step, halted_eq_false_iff.2 h, if_neg Bool.false_ne_true]
  exact if_pos hr

theorem step_past_end (h : m.fault = none) (hr : ¬ m.inReach) :
    m.step = .silent (m.signal (some .memoryOutOfRange) 0) := by
  rw [step, halted_eq_false_iff.2 h, if_neg Bool.false_ne_true]
  exact if_neg hr

theorem step_of_not_inReach (h : m.fault = none) (hr : ¬ m.inReach) :
    m.step.machine = m.signal (some .memoryOutOfRange) 0 := by
  rw [step_past_end h hr, Outcome.machine_silent]

@[simp]
theorem failure?_fetched (i : Instruction) : m.fetched.failure? i = m.failure? i := by
  cases i <;> rfl

@[simp]
theorem waits_fetched (i : Instruction) : m.fetched.waits i = m.waits i := by
  cases i <;> rfl

@[simp]
theorem skips_fetched (i : Instruction) : m.fetched.skips i = m.skips i := by
  cases i <;> rfl

theorem stop?_of_next? {i : Instruction} (hr : m.inReach) (hn : m.next? = some i) :
    m.stop? = (m.failure? i).map (·, m.word) := by
  rw [stop?, if_pos hr, hn]

theorem stop?_of_unknown (hr : m.inReach) (hn : m.next? = none) :
    m.stop? = if m.policy = .halt then some (.unknownOpcode, m.word) else none := by
  rw [stop?, if_pos hr, hn]

theorem stays_of_next? {i : Instruction} (hn : m.next? = some i) : m.stays = m.waits i := by
  rw [stays, hn]

theorem stays_of_unknown (hn : m.next? = none) : m.stays = decide (m.policy = .stall) := by
  rw [stays, hn]

theorem step_known (h : m.fault = none) (hr : m.inReach) {i : Instruction}
    (hn : m.next? = some i) : Step m m.step.machine := by
  have hstop := stop?_of_next? hr hn
  have hstays := stays_of_next? hn
  have hstep : m.step.machine = m.fetched.exec i := by
    rw [step_of_inReach h hr, execute, show Instruction.ofWord? m.word = some i from hn]
    rfl
  rw [hstep]
  -- the fetch has changed nothing of what makes an instruction fail or wait
  cases hf : m.failure? i with
  | some f =>
    rw [exec_of_failure? ((failure?_fetched i).trans hf), fail_fetched,
      Instruction.encode_of_ofWord? hn]
    exact .stop (by rw [hstop, hf, Option.map_some])
  | none =>
    rw [hf, Option.map_none] at hstop
    cases hw : m.waits i with
    | true =>
      rw [exec_of_waits ((waits_fetched i).trans hw), block_fetched]
      exact .wait hstop (hstays.trans hw)
    | false => exact .exec hstop (hstays.trans hw) hn

theorem step_unknown (h : m.fault = none) (hr : m.inReach) (hn : m.next? = none) :
    Step m m.step.machine := by
  have hstop := stop?_of_unknown hr hn
  have hstays := stays_of_unknown hn
  have hstep : m.step = m.fetched.executeUnknown m.word := by
    rw [step_of_inReach h hr, execute, show Instruction.ofWord? m.word = none from hn]
  rw [hstep, executeUnknown]
  cases hp : m.policy with
  | halt =>
    rw [show m.fetched.policy = .halt from hp]
    simp only [Outcome.machine_silent, fail_fetched]
    exact .stop (by rw [hstop, if_pos hp])
  | skip =>
    rw [show m.fetched.policy = .skip from hp]
    exact .pass (by rw [hstop, hp]; rfl) (by rw [hstays, hp]; rfl) hn hp
  | stall =>
    rw [show m.fetched.policy = .stall from hp]
    simp only [block_fetched]
    exact .wait (by rw [hstop, hp]; rfl) (by rw [hstays, hp]; rfl)

/-- A machine that runs takes a `Step`. -/
theorem step_cases (h : m.fault = none) : Step m m.step.machine := by
  by_cases hr : m.inReach
  · cases hn : m.next? with
    | some i => exact step_known h hr hn
    | none => exact step_unknown h hr hn
  · rw [step_of_not_inReach h hr]
    exact .stop (if_neg hr)

/-! ### Steps that advance -/

theorem inReach_of_stop? (h : m.stop? = none) : m.inReach := by
  by_cases hr : m.inReach
  · exact hr
  · rw [stop?, if_neg hr] at h
    cases h

theorem failure?_fetched_eq_none {i : Instruction} (hs : m.stop? = none) (hn : m.next? = some i) :
    m.fetched.failure? i = none := by
  rw [stop?_of_next? (inReach_of_stop? hs) hn, Option.map_eq_none_iff] at hs
  exact (failure?_fetched i).trans hs

/-- An instruction that a step advances by neither fails nor waits. -/
theorem fetched_goesOn {i : Instruction} (hs : m.stop? = none) (hw : m.stays = false)
    (hn : m.next? = some i) : GoesOn m.fetched i (m.fetched.exec i) := by
  rw [stays_of_next? hn] at hw
  exact exec_goesOn (failure?_fetched_eq_none hs hn) ((waits_fetched i).trans hw)

theorem pc_fetched (hr : m.inReach) : m.fetched.pc.toNat = m.pc.toNat + 2 := by
  have h : m.pc.toNat + 2 ≤ 4096 := hr
  simp only [fetched, UInt16.toNat_add, UInt16.reduceToNat]
  omega

/-- The address of the next instruction after one that is not a jump, a call or a
    return. It may lie past the end of memory. -/
theorem GoesOn.toNat_pc {i : Instruction} (hg : GoesOn m.fetched i m') (hr : m.inReach)
    (hi : i.transfers = false) : m'.pc.toNat = m.pc.toNat + if m.skips i then 4 else 2 := by
  have hpc := pc_fetched hr
  have h : m.pc.toNat + 2 ≤ 4096 := hr
  rw [hg.pc hi, skips_fetched]
  split_ifs
  · simp only [UInt16.toNat_add, UInt16.reduceToNat, hpc]
    omega
  · exact hpc

/-! ### Steps that hold -/

/-- `m'` is `m` but for the records: it waits, or has stopped, where it was. -/
inductive Held (m : Machine) : Machine → Prop
  | blocked : Held m { m with status := .blocked }
  | faulted (f : Fault) (w : UInt16) :
      Held m { m with status := .faulted, fault := some f, faultWord := w }

theorem step_of_halted (h : m.halted = true) : m.step = .silent m :=
  if_pos h

theorem step_of_fault {f : Fault} (h : m.fault = some f) : m.step.machine = m := by
  have hm : m.halted = true := by rw [halted, h, Option.isSome_some]
  rw [step_of_halted hm, Outcome.machine_silent]

theorem step_of_status (h : m.fault = none) (s : Status) :
    { m with status := s }.step = m.step := by
  have hm : m.halted = false := halted_eq_false_iff.2 h
  have hs : { m with status := s }.halted = false := hm
  rw [step, step, hm, hs]
  rfl

/-- A step that holds is a fixed point. -/
theorem Held.step_eq (hm : m.fault = none) (h : Held m m.step.machine) :
    m.step.machine.step.machine = m.step.machine := by
  generalize hm' : m.step.machine = m' at h
  cases h with
  | blocked => rw [step_of_status hm, hm']
  | faulted f w => exact step_of_fault rfl

/-- A step of a machine that runs advances or holds. -/
theorem step_advances_or_held (h : m.fault = none) :
    (m.step.machine.status = .advanced ∧ m.step.machine.fault = none) ∨ Held m m.step.machine := by
  have hs := step_cases h
  generalize m.step.machine = m' at hs
  cases hs with
  | stop hstop => exact .inr (.faulted _ _)
  | wait hstop hw => exact .inr .blocked
  | exec hstop hw hn =>
    have hg := fetched_goesOn hstop hw hn
    exact .inl ⟨hg.status, hg.fault.trans h⟩
  | pass hstop hw hn hp => exact .inl ⟨rfl, h⟩

theorem machine_steps_of_fixed {o : Outcome} (h : o.machine.step.machine = o.machine) (n : Nat) :
    (o.steps n).machine = o.machine := by
  -- the outcome is free in the induction, as its reports may grow
  induction n generalizing o with
  | zero => rfl
  | succ n ih =>
    have hm : (o.andThen step).machine = o.machine := h
    rw [Outcome.steps, ih, hm]
    rw [hm, h]

/-- A step of a machine that runs either advances, or holds and is repeated for
    ever. -/
theorem step_advances_or_holds (h : m.fault = none) :
    (m.step.machine.status = .advanced ∧ m.step.machine.fault = none) ∨
      (Held m m.step.machine ∧ m.step.machine.step.machine = m.step.machine ∧
        ∀ n, 1 ≤ n → ((Outcome.silent m).steps n).machine = m.step.machine) := by
  rcases step_advances_or_held h with ha | hh
  · exact .inl ha
  refine .inr ⟨hh, hh.step_eq h, ?_⟩
  intro n hn
  obtain ⟨k, rfl⟩ := Nat.exists_eq_add_of_le' hn
  exact machine_steps_of_fixed (o := (Outcome.silent m).andThen step) (hh.step_eq h) k

theorem step_advances_or_holds_stall :
    (create ⟨0, 0⟩ .stall).fault = none ∧
      (create ⟨0, 0⟩ .stall).step.machine.status = .blocked ∧
      ∀ n, 1 ≤ n → ((Outcome.silent (create ⟨0, 0⟩ .stall)).steps n).machine =
        (create ⟨0, 0⟩ .stall).step.machine := by
  have hb : (create ⟨0, 0⟩ .stall).step.machine.status = .blocked := by decide +kernel
  rcases step_advances_or_holds (m := create ⟨0, 0⟩ .stall) rfl with ⟨ha, -⟩ | ⟨-, -, hn⟩
  · rw [hb] at ha
    cases ha
  · exact ⟨rfl, hb, hn⟩

end Chip8.Machine
