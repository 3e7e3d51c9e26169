import Chip8.Proofs.Machine.Faults
import Chip8.Proofs.Machine.Run

/-!
# The instructions that a run executes

A step executes an instruction if it reads it and advances (`Machine.executes?`). A
step that executes none changes at most the address of the next instruction and the
records of the status and of the fault (`step_of_executes?_eq_none`).

Along a history, `Machine.executed` lists the instructions that are executed, each
with the machine that executes it. What is known of a machine from this list, an
event at a time, is known at the end (`history_foldl_executed`).
-/

namespace Chip8.Machine

variable {m : Machine} {i : Instruction}

/-! ### One step -/

/-- The instruction that the next step executes: it neither stops nor waits on it. -/
def executes? (m : Machine) : Option Instruction :=
  if m.fault = none ∧ m.step.machine.status = .advanced then m.next? else none

/-- What an instruction that is executed does, it does after the fetch. -/
theorem executes?_eq_some (h : m.executes? = some i) :
    m.fault = none ∧ m.stop? = none ∧ m.stays = false ∧ m.next? = some i ∧
      m.step.machine = m.fetched.exec i := by
  rw [executes?] at h
  split_ifs at h with hs
  obtain ⟨hf, hadv⟩ := hs
  have hstep := step_cases hf
  generalize m.step.machine = m' at hadv hstep ⊢
  cases hstep with
  | stop hstop => cases hadv
  | wait hstop hw => cases hadv
  | exec hstop hw hn =>
    obtain rfl := Option.some.inj (hn.symm.trans h)
    exact ⟨hf, hstop, hw, hn, rfl⟩
  | pass hstop hw hn hp =>
    rw [hn] at h
    cases h

/-- An instruction that is executed neither fails nor waits. -/
theorem exec_of_executes? (h : m.executes? = some i) :
    m.fetched.failure? i = none ∧ m.fetched.waits i = false ∧
      m.step.machine = m.fetched.exec i := by
  obtain ⟨-, hstop, hw, hn, hstep⟩ := executes?_eq_some h
  rw [stays_of_next? hn] at hw
  exact ⟨failure?_fetched_eq_none hstop hn, (waits_fetched i).trans hw, hstep⟩

/-- A step executes the instruction that it reads if it advances. -/
theorem executes?_eq_some_iff :
    m.executes? = some i ↔ m.fault = none ∧ m.Reads i ∧ m.step.machine.status = .advanced := by
  constructor
  · intro h
    obtain ⟨hf, hstop, hw, hn, hstep⟩ := executes?_eq_some h
    have hreads := (next?_eq_some_iff (inReach_of_stop? hstop)).1 hn
    rw [hstep]
    exact ⟨hf, hreads, (fetched_goesOn hstop hw hn).status⟩
  · rintro ⟨hf, hi, ha⟩
    rw [executes?, if_pos ⟨hf, ha⟩]
    exact (next?_eq_some_iff (inReach_iff.2 hi.1)).2 hi

/-- A step that executes no instruction changes at most the address of the next one
    and the records of the status and of the fault. -/
theorem step_of_executes?_eq_none (h : m.executes? = none) :
    ∃ pc status fault faultWord, m.step.machine = { m with pc, status, fault, faultWord } := by
  cases hf : m.fault with
  | some f => exact ⟨_, _, _, _, step_of_fault hf⟩
  | none =>
    have hstep := step_cases hf
    rw [executes?, hf] at h
    generalize m.step.machine = m' at h hstep
    cases hstep with
    | stop hstop => exact ⟨_, _, _, _, rfl⟩
    | wait hstop hw => exact ⟨_, _, _, _, rfl⟩
    | exec hstop hw hn =>
      have hg := fetched_goesOn hstop hw hn
      rw [if_pos ⟨rfl, hg.status⟩, hn] at h
      cases h
    | pass hstop hw hn hp => exact ⟨_, _, _, _, rfl⟩

/-! ### Histories -/

section

variable {α : Type} {g : Machine → Event → List α}

/-- What is collected along a history, an event at a time. -/
def collect (g : Machine → Event → List α) (m : Machine) : List Event → List α
  | [] => []
  | e :: es => g m e ++ (m.on e).collect g es

theorem collect_append (m : Machine) (es fs : List Event) :
    m.collect g (es ++ fs) = m.collect g es ++ (m.history es).collect g fs := by
  induction es generalizing m with
  | nil => rfl
  | cons e es ih => rw [List.cons_append, collect, collect, ih, List.append_assoc]; rfl

/-- Where nothing is collected at a change of the keys, nothing is collected at any
    number of them. -/
theorem collect_map_setKeys (h : ∀ m keys, g m (.setKeys keys) = []) (m : Machine)
    (l : List (Vector Bool 16)) : m.collect g (l.map .setKeys) = [] := by
  induction l generalizing m with
  | nil => rfl
  | cons keys l ih => rw [List.map_cons, collect, h, ih, List.append_nil]

end

/-- The instruction that an event executes, with the machine that executes it. -/
def executedOn (m : Machine) : Event → List (Machine × Instruction)
  | .step => m.executes?.toList.map (m, ·)
  | _ => []

/-- The instructions that are executed in a history, each with the machine that
    executes it. -/
def executed (m : Machine) : List Event → List (Machine × Instruction)
  | [] => []
  | e :: es => m.executedOn e ++ (m.on e).executed es

theorem executed_eq_collect (m : Machine) (es : List Event) :
    m.executed es = m.collect executedOn es := by
  induction es generalizing m with
  | nil => rfl
  | cons e es ih => rw [executed, collect, ih]

theorem executed_append (m : Machine) (es fs : List Event) :
    m.executed (es ++ fs) = m.executed es ++ (m.history es).executed fs := by
  simp only [executed_eq_collect, collect_append]

/-- What is said of a machine and of something computed from the instructions executed
    so far holds at the end of a history, if every event keeps it. -/
theorem history_foldl_executed {σ : Type} {P : Machine → σ → Prop}
    {f : σ → Machine × Instruction → σ}
    (hP : ∀ m s e, P m s → P (m.on e) ((m.executedOn e).foldl f s)) {s : σ} (hm : P m s)
    (es : List Event) : P (m.history es) ((m.executed es).foldl f s) := by
  induction es generalizing m s with
  | nil => exact hm
  | cons e es ih =>
    rw [executed, List.foldl_append]
    exact ih (hP m s e hm)

end Chip8.Machine
