import Chip8.Proofs.Machine.Loading
import Chip8.Proofs.Machine.Step
import Mathlib.Tactic.SplitIfs

/-!
# What holds of every reachable machine

The address of the next instruction may lie past the end of memory, but not
far: at most `0x10FE`, where a jump with an offset can lead, so that sums with
it never wrap. The index register keeps to twelve bits, and so do the addresses
on the return stack, which is zero above its pointer. The records of the status
and of the fault agree, and only the policy that stops at unknown words records
one as a fault.

All this is an invariant of every event (`on_invariant`), hence of every run
from reset (`run_invariant`).
-/

namespace Chip8.Machine

variable {m : Machine} {i : Instruction} {policy : Policy}

/-- The invariant of the machines that started with a policy. -/
structure Invariant (policy : Policy) (m : Machine) : Prop where
  pc_le : m.pc.toNat ≤ 0x10FE
  index_le : m.index.toNat ≤ 0xFFF
  stack : m.stack.WellFormed
  status_mem : m.status ∈ [.advanced, .blocked, .faulted]
  fault_mem : m.fault ∈ [none, some .unknownOpcode, some .stackOverflow, some .stackUnderflow,
    some .memoryOutOfRange]
  faulted_iff : m.status = .faulted ↔ m.fault ≠ none
  faultWord_eq_zero : m.fault = none → m.faultWord = 0
  halt_of_unknown : m.fault = some .unknownOpcode → m.policy = .halt
  policy_eq : m.policy = policy

theorem create_invariant (rng : Threefry.Pair) (policy : Policy) :
    (create rng policy).Invariant policy where
  pc_le := show (UInt16.ofNat Memory.programStart).toNat ≤ 0x10FE by decide
  index_le := Nat.zero_le _
  stack := ReturnStack.wellFormed_empty
  status_mem := by simp [create]
  fault_mem := by simp [create]
  faulted_iff := by simp [create]
  faultWord_eq_zero _ := rfl
  halt_of_unknown h := by cases h
  policy_eq := rfl

namespace Invariant

theorem status_of_fault (hm : m.Invariant policy) {f : Fault} (hf : m.fault = some f) :
    m.status = .faulted :=
  hm.faulted_iff.2 (hf ▸ Option.some_ne_none f)

theorem fault_eq_none (hm : m.Invariant policy) (h : m.status ≠ .faulted) : m.fault = none := by
  cases hf : m.fault with
  | none => rfl
  | some f => exact absurd (hm.status_of_fault hf) h

theorem fault_eq_none_of_step (hm : m.Invariant policy) (h : m.step.machine.status = .advanced) :
    m.fault = none := by
  cases hf : m.fault with
  | none => rfl
  | some f =>
    rw [step_of_fault hf, hm.status_of_fault hf] at h
    cases h

end Invariant

/-! ### Steps -/

/-- An instruction keeps the stack well-formed and leads at most to the sum of
    an address and a byte. -/
theorem exec_pc_le (hr : m.inReach) (hs : m.stack.WellFormed) (hf : m.fetched.failure? i = none)
    (hg : GoesOn m.fetched i (m.fetched.exec i)) :
    (m.fetched.exec i).pc.toNat ≤ 0x10FE ∧ (m.fetched.exec i).stack.WellFormed := by
  by_cases ht : i.transfers = false
  · have hle : m.pc.toNat + 2 ≤ 4096 := hr
    rw [hg.toNat_pc hr ht, hg.stack ht]
    refine ⟨?_, hs⟩
    split_ifs <;> omega
  · cases i with
    | jump a =>
      refine ⟨?_, hs⟩
      rw [exec, toNat_address]
      omega
    | call a =>
      obtain ⟨s, hp, he⟩ := exec_call hf
      rw [he, toNat_address]
      exact ⟨by omega, hs.push? hp⟩
    | ret =>
      obtain ⟨a, s, hp, he⟩ := exec_ret hf
      obtain ⟨hs, ha⟩ := hs.pop? hp
      rw [he]
      exact ⟨Nat.le_trans ha (by decide), hs⟩
    | jumpOffset a =>
      -- the one way past the end of memory by more than a word or two
      have hv := m.fetched.offset.toNat_lt
      refine ⟨?_, hs⟩
      rw [exec, toNat_offset]
      omega
    | _ => exact absurd rfl ht

/-- What stops a step is one of four faults, and an unknown word only by policy. -/
theorem stop?_fault {f : Fault} {w : UInt16} (h : m.stop? = some (f, w)) :
    f ∈ [.unknownOpcode, .stackOverflow, .stackUnderflow, .memoryOutOfRange] ∧
      (f = .unknownOpcode → m.policy = .halt) := by
  rw [stop?] at h
  split at h
  · split at h
    · obtain ⟨g, hg, he⟩ := Option.map_eq_some_iff.1 h
      cases he
      have hmem := failure?_mem hg
      refine ⟨List.mem_cons_of_mem _ hmem, ?_⟩
      rintro rfl
      simp at hmem
    · split_ifs at h with hp
      cases h
      exact ⟨List.mem_cons_self, fun _ => hp⟩
  · cases h
    simp

/-- A step keeps the invariant. -/
theorem Step.invariant {m' : Machine} (hm : m.Invariant policy) (hf : m.fault = none)
    (h : Step m m') : m'.Invariant policy := by
  cases h with
  | stop hstop =>
    obtain ⟨hmem, hhalt⟩ := stop?_fault hstop
    exact { hm with
      status_mem := by simp [signal]
      fault_mem := List.mem_cons_of_mem _ (List.mem_map_of_mem hmem)
      faulted_iff := by simp [signal]
      faultWord_eq_zero := nofun
      halt_of_unknown := fun h => hhalt (Option.some.inj h) }
  | wait hstop hw =>
    exact { hm with
      status_mem := by simp
      faulted_iff := by simp [hf] }
  | exec hstop hw hn =>
    have hr := inReach_of_stop? hstop
    have hg := fetched_goesOn hstop hw hn
    obtain ⟨hpc, hstack⟩ := exec_pc_le hr hm.stack (failure?_fetched_eq_none hstop hn) hg
    have hfault : (m.fetched.exec _).fault = none := hg.fault.trans hf
    have hstatus : (m.fetched.exec _).status = .advanced := hg.status
    exact {
      pc_le := hpc
      index_le := hg.index.elim (fun h => h ▸ hm.index_le) id
      stack := hstack
      status_mem := by simp [hstatus]
      fault_mem := by simp [hfault]
      faulted_iff := by simp [hstatus, hfault]
      faultWord_eq_zero := fun _ => hg.faultWord.trans (hm.faultWord_eq_zero hf)
      halt_of_unknown := fun h => by rw [hfault] at h; cases h
      policy_eq := hg.policy.trans hm.policy_eq }
  | pass hstop hw hn hp =>
    have hr : m.pc.toNat + 2 ≤ 4096 := inReach_of_stop? hstop
    have hpc := pc_fetched hr
    exact { hm with
      pc_le := by omega
      status_mem := by simp [fetched]
      faulted_iff := by simp [fetched, hf] }

/-! ### Events -/

theorem tick_invariant (hm : m.Invariant policy) : m.tick.Invariant policy :=
  { hm with }

/-- Every event keeps the invariant. -/
theorem on_invariant (m : Machine) (e : Event) (hm : m.Invariant policy) :
    (m.on e).Invariant policy := by
  cases e with
  | load rom =>
    obtain ⟨memory, h⟩ := loaded_eq m rom
    rw [on, h]
    exact { hm with }
  | step =>
    cases hf : m.fault with
    | none => exact (step_cases hf).invariant hm hf
    | some f =>
      rw [on, step_of_fault hf]
      exact hm
  | endFrame =>
    rw [on, endFrame]
    split_ifs
    · exact { hm with }
    · exact tick_invariant hm
  | tick => exact tick_invariant hm
  | setKeys keys => exact { hm with }

theorem Reachable.invariant (hm : m.Reachable) : ∃ policy, m.Invariant policy := by
  obtain ⟨rng, policy, as, rfl⟩ := hm
  exact ⟨policy, run_induction on_invariant (create_invariant rng policy) as⟩

/-- The invariant holds of every machine that a run from reset leads to, and the
    16-bit sums with the address of its next instruction do not wrap. -/
theorem run_invariant (rng : Threefry.Pair) (policy : Policy) (as : List Action) :
    ((create rng policy).run as).Invariant policy ∧
      ∀ k ≤ 4, (((create rng policy).run as).pc + .ofNat k).toNat =
        ((create rng policy).run as).pc.toNat + k := by
  have hm : ((create rng policy).run as).Invariant policy :=
    run_induction on_invariant (create_invariant rng policy) as
  refine ⟨hm, ?_⟩
  intro k hk
  have hpc := hm.pc_le
  rw [UInt16.toNat_add, UInt16.toNat_ofNat']
  omega

end Chip8.Machine
