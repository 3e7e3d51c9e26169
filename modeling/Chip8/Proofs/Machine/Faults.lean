import Chip8.Proofs.Machine.Invariant

/-!
# When a step faults

The faults of a step, case by case (`Machine.Faults`): a word or an operand that
does not lie in memory, a call with every slot of the return stack in use, a
return with none, and, under the policy that stops there, a word that no
instruction is encoded by.

A step from a reachable machine that runs stops with a fault exactly when the
fault is one of these, and its account names the address of the next
instruction and the word there (`step_fault_iff`).
-/

namespace Chip8

/-- The word at `a`: the byte at `a` above the byte that follows it. -/
def Memory.bigEndian (m : Memory) (a : Nat) : UInt16 :=
  .ofNat (256 * (m.read a).toNat + (m.read (a + 1)).toNat)

namespace Machine

variable {m m' : Machine} {i : Instruction} {f : Fault} {w : UInt16}

/-- The next instruction is `i`: its word lies in memory at the address of the
    next instruction. -/
def Reads (m : Machine) (i : Instruction) : Prop :=
  m.pc.toNat ≤ 0xFFE ∧ m.memory.bigEndian m.pc.toNat = i.encode

instance : Decidable (m.Reads i) :=
  inferInstanceAs (Decidable (_ ∧ _))

/-- The next step faults. -/
inductive Faults (m : Machine) : Fault → Prop
  | fetch : 0xFFE < m.pc.toNat → Faults m .memoryOutOfRange
  | draw {x y n : Fin 16} : m.Reads (.draw x y n) → 4096 < m.index.toNat + n →
      Faults m .memoryOutOfRange
  | decimal {x : Fin 16} : m.Reads (.decimal x) → 4095 < m.index.toNat + 2 →
      Faults m .memoryOutOfRange
  | store {x : Fin 16} : m.Reads (.store x) → 4095 < m.index.toNat + x →
      Faults m .memoryOutOfRange
  | restore {x : Fin 16} : m.Reads (.restore x) → 4095 < m.index.toNat + x →
      Faults m .memoryOutOfRange
  | overflow {a : Fin 4096} : m.Reads (.call a) → m.stack.pointer = 16 → Faults m .stackOverflow
  | underflow : m.Reads .ret → m.stack.pointer = 0 → Faults m .stackUnderflow
  | unknown : m.pc.toNat ≤ 0xFFE → (∀ i, m.memory.bigEndian m.pc.toNat ≠ Instruction.encode i) →
      m.policy = .halt → Faults m .unknownOpcode

/-! ### The next word -/

theorem inReach_iff : m.inReach ↔ m.pc.toNat ≤ 0xFFE := by
  rw [inReach, Memory.size]
  omega

theorem memory_word (m : Memory) (a : Nat) : m.word a (a + 1) = m.bigEndian a := by
  have hhigh := (m.read a).toNat_lt
  have hlow := (m.read (a + 1)).toNat_lt
  have hsum : 256 * (m.read a).toNat + (m.read (a + 1)).toNat < UInt16.size := by
    rw [UInt16.size]
    omega
  have hshift : (m.read a).toNat <<< 8 % 2 ^ 16 = (m.read a).toNat <<< 8 := by
    rw [Nat.shiftLeft_eq]
    omega
  rw [Memory.word, Memory.bigEndian, ← UInt16.toNat_inj, UInt16.toNat_ofNat_of_lt' hsum,
    UInt16.toNat_or, UInt16.toNat_shiftLeft, UInt8.toNat_toUInt16, UInt8.toNat_toUInt16]
  -- the low byte fills the bits that the shift has cleared
  calc (m.read a).toNat <<< 8 % 2 ^ 16 ||| (m.read (a + 1)).toNat
      = (m.read a).toNat <<< 8 + (m.read (a + 1)).toNat := by
        rw [hshift, Nat.shiftLeft_add_eq_or_of_lt hlow]
    _ = 256 * (m.read a).toNat + (m.read (a + 1)).toNat := by
        rw [Nat.shiftLeft_eq, Nat.mul_comm]

theorem word_eq_bigEndian (hr : m.inReach) : m.word = m.memory.bigEndian m.pc.toNat := by
  have hpc : (m.pc + 1).toNat = m.pc.toNat + 1 := by
    rw [inReach_iff] at hr
    rw [UInt16.toNat_add]
    simp only [UInt16.reduceToNat]
    omega
  rw [word, fetch, hpc, memory_word]

theorem next?_eq_some_iff (hr : m.inReach) : m.next? = some i ↔ m.Reads i := by
  rw [next?, Instruction.ofWord?_eq_some_iff, word_eq_bigEndian hr, Reads]
  exact (and_iff_right (inReach_iff.1 hr)).symm

theorem next?_eq_none_iff (hr : m.inReach) :
    m.next? = none ↔ ∀ i, m.memory.bigEndian m.pc.toNat ≠ Instruction.encode i := by
  rw [next?, Instruction.ofWord?_eq_none_iff, word_eq_bigEndian hr]

/-! ### The fault of a step -/

/-- A fault of a step is one of the faults listed. -/
theorem faults_of_stop? (hm : m.stack.WellFormed) (h : m.stop? = some (f, w)) : m.Faults f := by
  by_cases hr : m.inReach
  · cases hn : m.next? with
    | some i =>
      have hi := (next?_eq_some_iff hr).1 hn
      rw [stop?_of_next? hr hn] at h
      obtain ⟨g, hg, he⟩ := Option.map_eq_some_iff.1 h
      cases he
      -- each instruction has at most one way to fail
      cases i with
      | ret =>
        simp only [failure?] at hg
        split_ifs at hg with h0
        cases hg
        exact .underflow hi (Int.le_antisymm h0 hm.pointer_nonneg)
      | call a =>
        simp only [failure?] at hg
        split_ifs at hg with h16
        cases hg
        exact .overflow hi (Int.le_antisymm hm.pointer_le h16)
      | draw x y n =>
        obtain ⟨hlt, rfl⟩ := pastEnd?_eq_some hg
        exact .draw hi hlt
      | decimal x =>
        obtain ⟨hlt, rfl⟩ := pastEnd?_eq_some hg
        rw [Memory.size] at hlt
        exact .decimal hi (by omega)
      | store x =>
        obtain ⟨hlt, rfl⟩ := pastEnd?_eq_some hg
        rw [Memory.size] at hlt
        exact .store hi (by omega)
      | restore x =>
        obtain ⟨hlt, rfl⟩ := pastEnd?_eq_some hg
        rw [Memory.size] at hlt
        exact .restore hi (by omega)
      | _ => cases hg
    | none =>
      rw [stop?_of_unknown hr hn] at h
      split_ifs at h with hpol
      cases h
      exact .unknown (inReach_iff.1 hr) ((next?_eq_none_iff hr).1 hn) hpol
  · rw [stop?, if_neg hr] at h
    cases h
    exact .fetch (by rwa [inReach_iff, Nat.not_le] at hr)

theorem stop?_of_reads (hi : m.Reads i) (hf : m.failure? i = some f) :
    ∃ w, m.stop? = some (f, w) := by
  have hr := inReach_iff.2 hi.1
  refine ⟨m.word, ?_⟩
  rw [stop?_of_next? hr ((next?_eq_some_iff hr).2 hi), hf, Option.map_some]

/-- Each of the faults listed stops the next step. -/
theorem Faults.stop? (h : m.Faults f) : ∃ w, m.stop? = some (f, w) := by
  cases h with
  | fetch hpc =>
    have hr : ¬ m.inReach := by
      rw [inReach_iff]
      omega
    exact ⟨0, if_neg hr⟩
  | draw hi hn => exact stop?_of_reads hi (if_pos hn)
  | decimal hi hn =>
    refine stop?_of_reads hi (if_pos ?_)
    rw [Memory.size]
    omega
  | store hi hn | restore hi hn =>
    refine stop?_of_reads hi (if_pos ?_)
    rw [Memory.size]
    omega
  | overflow hi hp => exact stop?_of_reads hi (if_pos (Int.le_of_eq hp.symm))
  | underflow hi hp => exact stop?_of_reads hi (if_pos (Int.le_of_eq hp))
  | unknown hpc hn hp =>
    have hr := inReach_iff.2 hpc
    exact ⟨m.word, by rw [stop?_of_unknown hr ((next?_eq_none_iff hr).2 hn), if_pos hp]⟩

/-- The word on which a step stops: the next word, or zero if it does not lie in
    memory. -/
theorem stop?_word (h : m.stop? = some (f, w)) :
    w = if m.pc.toNat ≤ 0xFFE then m.memory.bigEndian m.pc.toNat else 0 := by
  by_cases hr : m.inReach
  · have hw : w = m.word := by
      rw [Machine.stop?, if_pos hr] at h
      cases hn : m.next? with
      | some i =>
        rw [hn] at h
        obtain ⟨g, -, he⟩ := Option.map_eq_some_iff.1 h
        cases he
        rfl
      | none =>
        rw [hn] at h
        simp only at h
        split_ifs at h
        cases h
        rfl
    rw [if_pos (inReach_iff.1 hr), hw, word_eq_bigEndian hr]
  · rw [Machine.stop?, if_neg hr] at h
    cases h
    rw [if_neg (mt inReach_iff.2 hr)]

theorem Step.fault?_eq (hf : m.fault = none) (h : Step m m') :
    m'.fault? = m.stop?.map fun s => ⟨s.1, m.pc, s.2⟩ := by
  cases h with
  | stop hstop =>
    rw [hstop]
    rfl
  | wait hstop hw =>
    rw [hstop, fault?, hf]
    rfl
  | exec hstop hw hn =>
    rw [hstop, fault?, (fetched_goesOn hstop hw hn).fault, show m.fetched.fault = none from hf]
    rfl
  | pass hstop hw hn hp =>
    rw [hstop, fault?, show m.fetched.fault = none from hf]
    rfl

theorem fault_eq_map_cause (m : Machine) : m.fault = m.fault?.map (·.cause) := by
  rw [fault?, Option.map_map]
  exact Option.map_id'.symm

/-- A step from a reachable machine that runs stops with a fault if and only if
    the fault is one of those listed, and then its account gives the address of
    the next instruction and the word there. Otherwise there is no account. -/
theorem step_fault_iff (hm : m.Reachable) (h : m.fault = none) :
    (∀ f, m.step.machine.status = .faulted ∧ m.step.machine.fault = some f ↔ m.Faults f) ∧
      (∀ f, m.Faults f → m.step.machine.fault? =
        some ⟨f, m.pc, if m.pc.toNat ≤ 0xFFE then m.memory.bigEndian m.pc.toNat else 0⟩) ∧
      ((∀ f, ¬ m.Faults f) → m.step.machine.status ≠ .faulted ∧ m.step.machine.fault? = none) := by
  obtain ⟨policy, hinv⟩ := hm.invariant
  have hnext : m.step.machine.Invariant policy := on_invariant m .step hinv
  have haccount := (step_cases h).fault?_eq h
  -- the account holds the fault, so what is known of it is known of the fault
  have hfault : m.step.machine.fault = m.stop?.map (·.1) := by
    rw [fault_eq_map_cause, haccount, Option.map_map]
    rfl
  have hiff : ∀ f, m.step.machine.fault = some f ↔ m.Faults f := by
    intro f
    rw [hfault]
    constructor
    · intro hf
      obtain ⟨⟨g, w⟩, hs, rfl⟩ := Option.map_eq_some_iff.1 hf
      exact faults_of_stop? hinv.stack hs
    · intro hf
      obtain ⟨w, hs⟩ := hf.stop?
      rw [hs, Option.map_some]
  refine ⟨fun f => ?_, fun f hf => ?_, fun hn => ?_⟩
  · rw [← hiff]
    exact ⟨And.right, fun hf => ⟨hnext.status_of_fault hf, hf⟩⟩
  · obtain ⟨w, hs⟩ := hf.stop?
    rw [haccount, hs, Option.map_some, stop?_word hs]
  · have hnone : m.step.machine.fault = none :=
      Option.eq_none_iff_forall_ne_some.2 fun f hf => hn f ((hiff f).1 hf)
    refine ⟨fun hs => hnext.faulted_iff.1 hs hnone, ?_⟩
    rw [fault?, hnone, Option.map_none]

theorem step_fault_iff_store :
    ((create ⟨0, 0⟩ .halt).run [.load [0xAF, 0xFF, 0xF1, 0x55], .step]).step.machine.fault? =
      some ⟨.memoryOutOfRange, 0x202, 0xF155⟩ := by
  obtain ⟨-, h, -⟩ := step_fault_iff
    (m := (create ⟨0, 0⟩ .halt).run [.load [0xAF, 0xFF, 0xF1, 0x55], .step])
    ⟨_, _, _, rfl⟩ (by decide +kernel)
  rw [h _ (.store (x := 1) ⟨by decide +kernel, by decide +kernel⟩ (by decide +kernel))]
  decide +kernel

end Machine

end Chip8
