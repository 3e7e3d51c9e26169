import Chip8.Proofs.Instruction.Forms
import Chip8.Proofs.Machine.Faults
import Chip8.Proofs.Machine.Run

/-!
# The policies for unknown words

No instruction looks at the policy: executing a word that is defined gives the
same under every policy, but for the policy itself, and reports nothing
(`exec_withPolicy`). Only a word that is not defined is handled by the policy
(`execute_eq_unknown_iff`).

Hence runs under different policies go alike up to the first unknown word. From
there on a machine that halts or stalls stays where it is, while one that skips
goes on (`steps_policy`).
-/

namespace Chip8

/-- What is printed: a warning for each report. -/
def Outcome.printed (o : Outcome) : List Log.Entry :=
  o.reports.toList.map fun r => Log.warning r.message

namespace Machine

variable {m : Machine} {p : Policy} {i : Instruction} {w : UInt16}

/-- The machine with another policy. -/
def withPolicy (m : Machine) (p : Policy) : Machine :=
  { m with policy := p }

/-! ### Instructions -/

theorem skipIf_withPolicy (c : Bool) :
    (m.withPolicy p).skipIf c = (m.skipIf c).withPolicy p := by
  cases c <;> rfl

theorem execAlu_withPolicy (op : Alu) (x y : Fin 16) :
    (m.withPolicy p).execAlu op x y = (m.execAlu op x y).withPolicy p := by
  cases op <;> rfl

/-- An instruction does not look at the policy. -/
theorem exec_withPolicy (m : Machine) (p : Policy) (i : Instruction) :
    (m.withPolicy p).exec i = (m.exec i).withPolicy p := by
  cases i with
  | ret =>
    simp only [exec, withPolicy]
    cases m.stack.pop? <;> rfl
  | call a =>
    simp only [exec, withPolicy]
    cases m.stack.push? m.pc.toNat <;> rfl
  | waitKey x =>
    have h : (m.withPolicy p).highestKey? = m.highestKey? := rfl
    simp only [exec, h]
    cases m.highestKey? <;> rfl
  | skipEq x k | skipNe x k | skipEqReg x y | skipNeReg x y | skipKey x | skipNoKey x =>
    exact skipIf_withPolicy _
  | alu op x y => exact execAlu_withPolicy op x y
  | draw x y n | decimal x | store x | restore x =>
    -- the check of the range is the same on both sides
    simp only [exec, apply_ite (withPolicy · p)]
    rfl
  | _ => rfl

/-! ### Words -/

theorem execute_encode (m : Machine) (i : Instruction) :
    m.execute i.encode = .silent (m.exec i) := by
  rw [execute, Instruction.ofWord?_encode]

theorem executeUnknown_halt (h : m.policy = .halt) (w : UInt16) :
    m.executeUnknown w = .silent (m.fail .unknownOpcode w) := by
  rw [executeUnknown, h]

theorem executeUnknown_skip (h : m.policy = .skip) (w : UInt16) :
    m.executeUnknown w = ⟨m, #[⟨w, m.pc - 2⟩]⟩ := by
  rw [executeUnknown, h]

theorem executeUnknown_stall (h : m.policy = .stall) (w : UInt16) :
    m.executeUnknown w = ⟨m.block, #[⟨w, m.pc - 2⟩]⟩ := by
  rw [executeUnknown, h]

theorem reports_executeUnknown (h : m.policy ≠ .halt) (w : UInt16) :
    (m.executeUnknown w).reports = #[⟨w, m.pc - 2⟩] := by
  cases hp : m.policy with
  | halt => exact absurd hp h
  | skip => rw [executeUnknown_skip hp]
  | stall => rw [executeUnknown_stall hp]

theorem execute_of_not_defined (h : ¬ Form.Defined w) : m.execute w = m.executeUnknown w := by
  have hn : Instruction.ofWord? w = none :=
    Instruction.ofWord?_eq_none_iff.2 fun i hi => h (Form.defined_iff.2 ⟨i, hi⟩)
  rw [execute, hn]

/-- An instruction of a machine that runs does not stop it for an unknown word. -/
theorem fault_exec_ne_unknownOpcode (h : m.fault = none) (i : Instruction) :
    (m.exec i).fault ≠ some .unknownOpcode := by
  cases hf : m.failure? i with
  | some f =>
    have hmem := failure?_mem hf
    rw [exec_of_failure? hf]
    rintro he
    cases he
    simp at hmem
  | none =>
    cases hw : m.waits i with
    | true =>
      rw [exec_of_waits hw, show m.block.fault = none from h]
      nofun
    | false =>
      rw [(exec_goesOn hf hw).fault, h]
      nofun

/-- What an instruction does is not what is done with an unknown word. -/
theorem silent_exec_ne_executeUnknown (h : m.fault = none) (i : Instruction) (w : UInt16) :
    Outcome.silent (m.exec i) ≠ m.executeUnknown w := by
  intro he
  by_cases hp : m.policy = .halt
  · rw [executeUnknown_halt hp] at he
    exact fault_exec_ne_unknownOpcode h i (congrArg (·.machine.fault) he)
  · have hr := congrArg (·.reports.size) he
    simp only [Outcome.reports_silent, reports_executeUnknown hp] at hr
    cases hr

/-- A machine that runs treats a word as unknown if and only if the word is not
    defined. Then it stops, goes on, or stays in place, as the policy demands, and
    prints a warning unless it stops. A word that is defined is executed as the
    instruction that it encodes, under every policy alike, and nothing is printed. -/
theorem execute_eq_unknown_iff (h : m.fault = none) (w : UInt16) :
    (m.execute w = m.executeUnknown w ↔ ¬ Form.Defined w) ∧
      (¬ Form.Defined w →
        (m.policy = .halt → m.execute w = .silent { m with
          pc := m.pc - 2, status := .faulted, fault := some .unknownOpcode, faultWord := w }) ∧
        (m.policy = .skip → m.execute w = ⟨m, #[⟨w, m.pc - 2⟩]⟩) ∧
        (m.policy = .stall → m.execute w =
          ⟨{ m with pc := m.pc - 2, status := .blocked }, #[⟨w, m.pc - 2⟩]⟩) ∧
        (m.policy ≠ .halt → (m.execute w).printed =
          [Log.warning ("Unknown opcode 0x" ++ Text.hexadecimal 4 w.toNat ++
            " at 0x" ++ Text.hexadecimal 3 (m.pc - 2).toNat)])) ∧
      (Form.Defined w → (∃ i : Instruction, w = i.encode ∧ m.execute w = .silent (m.exec i)) ∧
        ∀ p, (m.withPolicy p).execute w = .silent ((m.execute w).machine.withPolicy p)) := by
  refine ⟨⟨?_, execute_of_not_defined⟩, ?_, ?_⟩
  · intro he hd
    obtain ⟨i, rfl⟩ := Form.defined_iff.1 hd
    rw [execute_encode] at he
    exact silent_exec_ne_executeUnknown h i _ he
  · intro hd
    rw [execute_of_not_defined hd]
    refine ⟨fun hp => executeUnknown_halt hp w, fun hp => executeUnknown_skip hp w,
      fun hp => executeUnknown_stall hp w, fun hp => ?_⟩
    rw [Outcome.printed, reports_executeUnknown hp]
    rfl
  · intro hd
    obtain ⟨i, rfl⟩ := Form.defined_iff.1 hd
    refine ⟨⟨i, rfl, execute_encode m i⟩, fun p => ?_⟩
    rw [execute_encode, execute_encode, exec_withPolicy]
    rfl

theorem execute_eq_unknown_iff_alu :
    (create ⟨0, 0⟩ .stall).fault = none ∧
      (create ⟨0, 0⟩ .stall).execute 0x8128 = (create ⟨0, 0⟩ .stall).executeUnknown 0x8128 ∧
      ((create ⟨0, 0⟩ .stall).execute 0x8128).printed =
        [Log.warning "Unknown opcode 0x8128 at 0x1FE"] ∧
      ((create ⟨0, 0⟩ .stall).withPolicy .skip).execute 0x812E =
        .silent (((create ⟨0, 0⟩ .stall).execute 0x812E).machine.withPolicy .skip) := by
  obtain ⟨hiff, hunknown, -⟩ := execute_eq_unknown_iff (m := create ⟨0, 0⟩ .stall) rfl 0x8128
  obtain ⟨-, -, hdefined⟩ := execute_eq_unknown_iff (m := create ⟨0, 0⟩ .stall) rfl 0x812E
  have hn : ¬ Form.Defined 0x8128 := by decide +kernel
  refine ⟨rfl, hiff.2 hn, ?_, (hdefined (by decide +kernel)).2 .skip⟩
  rw [(hunknown hn).2.2.2 (by decide)]
  decide +kernel

/-! ### Steps -/

/-- The next step fetches the word `w`, which is not defined. -/
def FetchesUnknown (m : Machine) (w : UInt16) : Prop :=
  m.fault = none ∧ m.pc.toNat ≤ 0xFFE ∧ m.memory.bigEndian m.pc.toNat = w ∧ ¬ Form.Defined w

instance : Decidable (m.FetchesUnknown w) :=
  inferInstanceAs (Decidable (_ ∧ _))

theorem defined_word (h : ∀ w, ¬ m.FetchesUnknown w) (hf : m.fault = none) (hr : m.inReach) :
    Form.Defined m.word := by
  refine Decidable.not_not.1 fun hd => h m.word ⟨hf, inReach_iff.1 hr, ?_, hd⟩
  rw [word_eq_bigEndian hr]

/-- A step that reads an instruction runs it. -/
theorem step_of_reads (h : m.fault = none) (hi : m.Reads i) :
    m.step = .silent (m.fetched.exec i) := by
  have hr := inReach_iff.2 hi.1
  rw [step_of_inReach h hr, word_eq_bigEndian hr, hi.2, execute_encode]

/-- A step that fetches a defined word, or none, does not look at the policy. -/
theorem step_withPolicy (h : ∀ w, ¬ m.FetchesUnknown w) (p : Policy) :
    (m.withPolicy p).step = .silent (m.step.machine.withPolicy p) := by
  cases hf : m.fault with
  | some f =>
    have hm : m.halted = true := by rw [halted, hf, Option.isSome_some]
    have hp : (m.withPolicy p).halted = true := hm
    rw [step_of_halted hm, step_of_halted hp, Outcome.machine_silent]
  | none =>
    have hfp : (m.withPolicy p).fault = none := hf
    by_cases hr : m.inReach
    · have hrp : (m.withPolicy p).inReach := hr
      obtain ⟨i, hi⟩ := Form.defined_iff.1 (defined_word h hf hr)
      have hip : (m.withPolicy p).word = i.encode := hi
      rw [step_of_inReach hf hr, step_of_inReach hfp hrp, hi, hip, execute_encode, execute_encode,
        Outcome.machine_silent, ← exec_withPolicy]
      rfl
    · have hrp : ¬ (m.withPolicy p).inReach := hr
      rw [step_past_end hf hr, step_past_end hfp hrp]
      rfl

theorem FetchesUnknown.step_eq (h : m.FetchesUnknown w) : m.step = m.fetched.executeUnknown w := by
  obtain ⟨hf, hpc, rfl, hd⟩ := h
  have hr := inReach_iff.2 hpc
  rw [step_of_inReach hf hr, word_eq_bigEndian hr]
  exact execute_of_not_defined hd

theorem fetched_pc_sub : m.fetched.pc - 2 = m.pc :=
  congrArg pc rewind_fetched

theorem FetchesUnknown.step_halt (h : m.FetchesUnknown w) (hp : m.policy = .halt) :
    m.step = .silent (m.signal (some .unknownOpcode) w) := by
  have hpf : m.fetched.policy = .halt := hp
  rw [h.step_eq, executeUnknown_halt hpf, fail_fetched]

theorem FetchesUnknown.step_skip (h : m.FetchesUnknown w) (hp : m.policy = .skip) :
    m.step = ⟨m.fetched, #[⟨w, m.pc⟩]⟩ := by
  have hpf : m.fetched.policy = .skip := hp
  rw [h.step_eq, executeUnknown_skip hpf, fetched_pc_sub]

theorem FetchesUnknown.step_stall (h : m.FetchesUnknown w) (hp : m.policy = .stall) :
    m.step = ⟨{ m with status := .blocked }, #[⟨w, m.pc⟩]⟩ := by
  have hpf : m.fetched.policy = .stall := hp
  rw [h.step_eq, executeUnknown_stall hpf, block_fetched, fetched_pc_sub]

/-! ### Runs -/

/-- As long as no step fetches an unknown word, runs under all policies go alike
    and report nothing. -/
theorem steps_withPolicy {n : Nat} (h : ∀ j < n, ∀ w, ¬ (m.after j).FetchesUnknown w)
    (p : Policy) :
    (Outcome.silent (m.withPolicy p)).steps n = .silent ((m.after n).withPolicy p) := by
  induction n with
  | zero => rfl
  | succ n ih =>
    have hn := ih fun j hj => h j (Nat.lt_succ_of_lt hj)
    rw [Outcome.steps_succ, hn, Outcome.silent_andThen, after_succ,
      step_withPolicy (h n n.lt_succ_self)]

theorem steps_of_halted (h : m.halted = true) (n : Nat) :
    (Outcome.silent m).steps n = .silent m := by
  induction n with
  | zero => rfl
  | succ n ih => rw [Outcome.steps_succ, ih, Outcome.silent_andThen, step_of_halted h]

/-- A machine that stalls on an unknown word does so for ever, and reports it at
    every step. -/
theorem FetchesUnknown.steps_stall (h : m.FetchesUnknown w) (hp : m.policy = .stall) (k : Nat) :
    (Outcome.silent m).steps (k + 1) =
      ⟨{ m with status := .blocked }, .replicate (k + 1) ⟨w, m.pc⟩⟩ := by
  induction k with
  | zero =>
    rw [Outcome.steps_succ, Outcome.steps, Outcome.silent_andThen, h.step_stall hp]
    rfl
  | succ k ih =>
    -- the status is all that has changed, and the step does not look at it
    have hs : { m with status := .blocked }.step = m.step := step_of_status h.1 .blocked
    rw [Outcome.steps_succ, ih, Outcome.andThen, hs, h.step_stall hp, Array.append_singleton,
      ← Array.replicate_succ]

/-- Runs that differ in the policy only go alike, and print nothing, as long as no
    step fetches an unknown word. From the first such step on, a machine that halts
    stays where it has stopped; one that skips goes on with the next word, with all
    else as it was; one that stalls stays there for ever and reports it at every
    step. -/
theorem steps_policy {n : Nat} (h : ∀ j < n, ∀ w, ¬ (m.after j).FetchesUnknown w) :
    (∀ p, (Outcome.silent (m.withPolicy p)).steps n = .silent ((m.after n).withPolicy p)) ∧
      ∀ w, (m.after n).FetchesUnknown w →
        (∀ k, (Outcome.silent (m.withPolicy .halt)).steps (n + (k + 1)) =
          .silent { m.after n with
            policy := .halt, status := .faulted, fault := some .unknownOpcode, faultWord := w }) ∧
        (Outcome.silent (m.withPolicy .skip)).steps (n + 1) =
          ⟨{ m.after n with policy := .skip, status := .advanced, pc := (m.after n).pc + 2 },
            #[⟨w, (m.after n).pc⟩]⟩ ∧
        ((m.after n).pc + 2).toNat = (m.after n).pc.toNat + 2 ∧
        ∀ k, (Outcome.silent (m.withPolicy .stall)).steps (n + (k + 1)) =
          ⟨{ m.after n with policy := .stall, status := .blocked },
            .replicate (k + 1) ⟨w, (m.after n).pc⟩⟩ := by
  have hn := steps_withPolicy h
  refine ⟨hn, fun w hw => ?_⟩
  -- the word is unknown under every policy
  have hp : ∀ p, ((m.after n).withPolicy p).FetchesUnknown w := fun _ => hw
  refine ⟨fun k => ?_, ?_, pc_fetched (inReach_iff.2 hw.2.1), fun k => ?_⟩
  · rw [Nat.add_comm k, Outcome.steps_add, Outcome.steps_add, hn, Outcome.steps_succ, Outcome.steps,
      Outcome.silent_andThen, (hp .halt).step_halt rfl]
    exact steps_of_halted rfl k
  · rw [Outcome.steps_succ, hn, Outcome.silent_andThen, (hp .skip).step_skip rfl]
    rfl
  · rw [Outcome.steps_add, hn]
    exact (hp .stall).steps_stall rfl k

theorem steps_policy_load :
    ∃ m, (create ⟨0, 0⟩ .halt).loadRom [0x6A, 0x05, 0x01, 0x23] = .ok m ∧
      (m.after 1).FetchesUnknown 0x0123 ∧
      (Outcome.silent (m.withPolicy .stall)).steps 4 =
        ⟨{ m.after 1 with policy := .stall, status := .blocked },
          .replicate 3 ⟨0x0123, 0x202⟩⟩ := by
  have hw : (((create ⟨0, 0⟩ .halt).loaded [0x6A, 0x05, 0x01, 0x23]).after 1).FetchesUnknown
      0x0123 := by decide +kernel
  have hpc : (((create ⟨0, 0⟩ .halt).loaded [0x6A, 0x05, 0x01, 0x23]).after 1).pc = 0x202 := by
    decide +kernel
  obtain ⟨-, hu⟩ := steps_policy (m := (create ⟨0, 0⟩ .halt).loaded [0x6A, 0x05, 0x01, 0x23])
    (n := 1) fun j hj w hw => by
      obtain rfl : j = 0 := Nat.lt_one_iff.1 hj
      obtain ⟨-, -, rfl, hd⟩ := hw
      revert hd
      decide +kernel
  obtain ⟨-, -, -, hs⟩ := hu 0x0123 hw
  exact ⟨_, rfl, hw, hpc ▸ hs 2⟩

end Machine

end Chip8
