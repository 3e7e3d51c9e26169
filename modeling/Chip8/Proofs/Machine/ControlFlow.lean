import Chip8.Proofs.Machine.Faults

/-!
# Where control goes

On an ideal machine addresses are natural numbers, which never wrap, and a
return goes on right after the call it returns from (`Control`). Beside a run of
steps from the start of a program, with the keys changing freely before each,
stands the `ideal` control that follows the steps that advance.

The machine keeps to it but in one case: a call at `0xFFE`, the last address
with room for a word, pushes twelve bits of `0x1000`, which are zero, so the
return from it goes to `0` rather than past the end of memory. The address of
the next instruction is the ideal one all along a run if and only if no such
return takes place (`trace_pc_eq_iff`).
-/

namespace Chip8

/-- Where an ideal machine stands: the address of the next instruction, and the
    addresses of the calls that have not returned, newest first. -/
structure Control where
  pc : Nat
  calls : List Nat

namespace Control

variable {m : Machine} {i : Instruction} {c : Control}

/-- Control at the start of a program. -/
def start : Control :=
  ⟨Memory.programStart, []⟩

/-- Control after an instruction, run with the registers and keys of `m`. -/
def follow (c : Control) (m : Machine) (i : Instruction) : Control :=
  match i with
  | .jump a => { c with pc := a }
  | .call a => ⟨a, c.pc :: c.calls⟩
  | .ret =>
    match c.calls with
    | [] => c
    | a :: calls => ⟨a + 2, calls⟩
  | .jumpOffset a => { c with pc := a + m.offset.toNat }
  | i => { c with pc := c.pc + if m.skips i then 4 else 2 }

/-- Control after a step of `m` that advances. A word that encodes nothing is
    passed over. -/
def after (c : Control) (m : Machine) : Control :=
  match m.next? with
  | some i => c.follow m i
  | none => { c with pc := c.pc + 2 }

/-- What the machine keeps of the address of a call: twelve bits of the address
    right after it. -/
def kept (a : Nat) : UInt16 :=
  .ofInt (((a + 2 : Nat) : Int) % 4096)

/-- The return stack that holds what is kept of the calls. -/
def stack (c : Control) : ReturnStack :=
  .ofList (c.calls.reverse.map kept)

theorem follow_of_not_transfers (hi : i.transfers = false) :
    c.follow m i = { c with pc := c.pc + if m.skips i then 4 else 2 } := by
  cases i with
  | jump a | call a | ret | jumpOffset a => cases hi
  | _ => rfl

theorem follow_ret {a : Nat} {calls : List Nat} (hc : c.calls = a :: calls) :
    c.follow m .ret = ⟨a + 2, calls⟩ := by
  obtain ⟨pc, _⟩ := c
  cases hc
  rfl

theorem toNat_kept {a : Nat} (ha : a ≤ 0xFFE) :
    (kept a).toNat = if a = 0xFFE then 0 else a + 2 := by
  rw [kept, ReturnStack.toNat_masked]
  split_ifs <;> omega

theorem push?_stack {s : ReturnStack} (h : c.stack.push? ((c.pc + 2 : Nat) : Int) = some s)
    (a : Nat) :
    c.calls.length < 16 ∧ s = stack ⟨a, c.pc :: c.calls⟩ := by
  rw [stack, ReturnStack.push?_ofList] at h
  split_ifs at h with hl
  rw [List.length_map, List.length_reverse] at hl
  refine ⟨hl, ?_⟩
  -- the newest call is the head of `calls` and the last slot in use
  rw [← Option.some.inj h, stack, List.reverse_cons, List.map_append]
  rfl

theorem pop?_stack (hroom : c.calls.length ≤ 16) {b : UInt16} {s : ReturnStack}
    (h : c.stack.pop? = some (b, s)) :
    ∃ a calls, c.calls = a :: calls ∧ b = kept a ∧ ∀ p, s = stack ⟨p, calls⟩ := by
  rw [stack] at h
  cases hc : c.calls with
  | nil =>
    rw [hc, List.reverse_nil, List.map_nil, ReturnStack.pop?_ofList_nil] at h
    cases h
  | cons a calls =>
    have hlt : (calls.reverse.map kept).length < 16 := by
      rw [hc, List.length_cons] at hroom
      rw [List.length_map, List.length_reverse]
      omega
    rw [hc, List.reverse_cons, List.map_append, List.map_singleton,
      ReturnStack.pop?_ofList_concat hlt] at h
    cases h
    exact ⟨a, calls, rfl, rfl, fun _ => rfl⟩

end Control

namespace Machine

variable {m m' : Machine} {i : Instruction} {c : Control} {policy : Policy}

/-- The machine stands where the ideal control does, and its return stack holds
    what is kept of the calls. -/
structure Tracks (m : Machine) (c : Control) : Prop where
  pc : m.pc.toNat = c.pc
  stack : m.stack = c.stack
  length_le : c.calls.length ≤ 16
  le_of_mem : ∀ a ∈ c.calls, a ≤ 0xFFE

/-- The next instruction returns from a call at the last address with room for a
    word. -/
def ReturnsPastEnd (m : Machine) (c : Control) : Prop :=
  m.Reads .ret ∧ c.calls.head? = some 0xFFE

instance : Decidable (m.ReturnsPastEnd c) :=
  inferInstanceAs (Decidable (_ ∧ _))

/-- The machine goes where the ideal control does, unless it returns past the
    end: then it goes to `0`. -/
inductive Follows (returnsPastEnd : Prop) (m : Machine) (c : Control) : Prop
  | tracks : ¬ returnsPastEnd → Tracks m c → Follows returnsPastEnd m c
  | wraps : returnsPastEnd → m.pc = 0 → c.pc = 0x1000 → Follows returnsPastEnd m c

/-! ### One instruction -/

theorem tracks_call (hr : m.inReach) (ht : Tracks m c) {a : Fin 4096}
    (hf : m.fetched.failure? (.call a) = none) :
    Tracks (m.fetched.exec (.call a)) (c.follow m (.call a)) := by
  obtain ⟨s, hp, he⟩ := exec_call hf
  have hle : c.pc ≤ 0xFFE := ht.pc ▸ inReach_iff.1 hr
  rw [pc_fetched hr, ht.pc, show m.fetched.stack = c.stack from ht.stack] at hp
  obtain ⟨hlt, hs⟩ := Control.push?_stack hp a
  rw [he]
  exact ⟨toNat_address a, hs, hlt, List.forall_mem_cons.2 ⟨hle, ht.le_of_mem⟩⟩

/-- A return goes on right after the call, or to `0` if that is past the end. -/
theorem follows_ret (ht : Tracks m c) (hf : m.fetched.failure? .ret = none) :
    Follows (c.calls.head? = some 0xFFE) (m.fetched.exec .ret) (c.follow m .ret) := by
  obtain ⟨b, s, hp, he⟩ := exec_ret hf
  rw [show m.fetched.stack = c.stack from ht.stack] at hp
  obtain ⟨a, calls, hc, rfl, hs⟩ := Control.pop?_stack ht.length_le hp
  have hle := ht.length_le
  have hmem := ht.le_of_mem
  rw [hc] at hmem hle
  obtain ⟨ha, hcalls⟩ := List.forall_mem_cons.1 hmem
  have hkept := Control.toNat_kept ha
  -- twelve bits hold the address after the call, unless the call stands at the end
  rw [he, Control.follow_ret hc, hc, List.head?_cons, Option.some_inj]
  by_cases h : a = 0xFFE
  · rw [if_pos h] at hkept
    exact .wraps h (UInt16.toNat_inj.1 hkept) (congrArg (· + 2) h)
  · rw [if_neg h] at hkept
    exact .tracks h ⟨hkept, hs _, Nat.le_of_succ_le hle, hcalls⟩

theorem tracks_exec (hr : m.inReach) (ht : Tracks m c) (hi : i ≠ .ret)
    (hf : m.fetched.failure? i = none) (hg : GoesOn m.fetched i (m.fetched.exec i)) :
    Tracks (m.fetched.exec i) (c.follow m i) := by
  by_cases hit : i.transfers = false
  · have hpc := hg.toNat_pc hr hit
    rw [ht.pc] at hpc
    rw [Control.follow_of_not_transfers hit]
    exact ⟨hpc, (hg.stack hit).trans ht.stack, ht.length_le, ht.le_of_mem⟩
  · cases i with
    | jump a => exact ⟨toNat_address a, ht.stack, ht.length_le, ht.le_of_mem⟩
    | call a => exact tracks_call hr ht hf
    | ret => exact absurd rfl hi
    | jumpOffset a => exact ⟨toNat_offset a _, ht.stack, ht.length_le, ht.le_of_mem⟩
    | _ => exact absurd rfl hit

/-! ### One step -/

/-- A step that advances goes where the ideal control does, unless it returns
    past the end. -/
theorem step_follows (hm : m.Invariant policy) (ht : Tracks m c)
    (h : m.step.machine.status = .advanced) :
    Follows (m.ReturnsPastEnd c) m.step.machine (c.after m) := by
  have hf := hm.fault_eq_none_of_step h
  have hs := step_cases hf
  generalize m.step.machine = m' at h hs
  cases hs with
  | stop hstop => cases h
  | wait hstop hw => cases h
  | @exec i hstop hw hn =>
    have hr := inReach_of_stop? hstop
    have hafter : c.after m = c.follow m i := by rw [Control.after, hn]
    -- in the statement the return is read from memory, here it is an instruction
    have hreads : m.Reads .ret ↔ i = .ret := by
      rw [← next?_eq_some_iff hr, hn, Option.some_inj]
    have hfail := failure?_fetched_eq_none hstop hn
    rw [hafter, ReturnsPastEnd, hreads]
    by_cases hi : i = .ret
    · rw [and_iff_right hi]
      cases hi
      exact follows_ret ht hfail
    · exact .tracks (fun h => hi h.1) (tracks_exec hr ht hi hfail (fetched_goesOn hstop hw hn))
  | pass hstop hw hn hp =>
    have hr := inReach_of_stop? hstop
    have hafter : c.after m = { c with pc := c.pc + 2 } := by rw [Control.after, hn]
    have hreads : ¬ m.Reads .ret := by
      rw [← next?_eq_some_iff hr, hn]
      exact (Option.some_ne_none _).symm
    rw [hafter]
    refine .tracks (fun h => hreads h.1) ⟨?_, ht.stack, ht.length_le, ht.le_of_mem⟩
    rw [pc_fetched hr, ht.pc]

/-- A step that does not advance stays where it is. -/
theorem tracks_of_not_advanced (ht : Tracks m c) (h : m.step.machine.status ≠ .advanced) :
    Tracks m.step.machine c := by
  cases hf : m.fault with
  | some f =>
    rw [step_of_fault hf]
    exact ht
  | none =>
    rcases step_advances_or_held hf with ⟨ha, -⟩ | hh
    · exact absurd ha h
    · generalize m.step.machine = m' at hh
      cases hh <;> exact ⟨ht.pc, ht.stack, ht.length_le, ht.le_of_mem⟩

/-! ### Runs of steps -/

/-- The machine after `n` steps, before each of which the keys are set. -/
def trace (m : Machine) (keys : Nat → Vector Bool 16) : Nat → Machine
  | 0 => m
  | n + 1 => ((trace m keys n).setKeys (keys n)).step.machine

variable {keys : Nat → Vector Bool 16} {n : Nat}

/-- The machine that takes the step `n`. -/
def before (m : Machine) (keys : Nat → Vector Bool 16) (n : Nat) : Machine :=
  (m.trace keys n).setKeys (keys n)

/-- The ideal control after `n` steps, of which it follows those that advance. -/
def ideal (m : Machine) (keys : Nat → Vector Bool 16) : Nat → Control
  | 0 => .start
  | n + 1 =>
    if (m.trace keys (n + 1)).status = .advanced then (ideal m keys n).after (m.before keys n)
    else ideal m keys n

/-- The step `n` advances and returns past the end. -/
def WrapsAt (m : Machine) (keys : Nat → Vector Bool 16) (n : Nat) : Prop :=
  (m.trace keys (n + 1)).status = .advanced ∧ (m.before keys n).ReturnsPastEnd (m.ideal keys n)

instance : Decidable (m.WrapsAt keys n) :=
  inferInstanceAs (Decidable (_ ∧ _))

theorem ideal_of_advanced (h : (m.trace keys (n + 1)).status = .advanced) :
    m.ideal keys (n + 1) = (m.ideal keys n).after (m.before keys n) :=
  if_pos h

theorem ideal_of_not_advanced (h : (m.trace keys (n + 1)).status ≠ .advanced) :
    m.ideal keys (n + 1) = m.ideal keys n :=
  if_neg h

theorem before_invariant (hm : m.Invariant policy) (n : Nat) :
    (m.before keys n).Invariant policy := by
  induction n with
  | zero => exact on_invariant m (.setKeys (keys 0)) hm
  | succ n ih =>
    have hstep : (m.trace keys (n + 1)).Invariant policy := on_invariant _ .step ih
    exact on_invariant _ (.setKeys (keys (n + 1))) hstep

theorem start_tracks {rng : Threefry.Pair} {rom : List UInt8}
    (h : (create rng policy).loadRom rom = .ok m) : Tracks m .start ∧ m.Invariant policy := by
  have hl : (create rng policy).loaded rom = m := by rw [loaded, h]
  have hpc : (UInt16.ofNat Memory.programStart).toNat = Memory.programStart := by decide
  refine ⟨?_, hl ▸ on_invariant _ (.load rom) (create_invariant rng policy)⟩
  obtain ⟨memory, rfl⟩ := loadRom_eq h
  exact ⟨hpc, ReturnStack.empty_eq_ofList, Nat.zero_le _, List.forall_mem_nil _⟩

/-- As long as the machine goes where the ideal control does, so does the next
    step, unless it returns past the end. -/
theorem trace_follows (hm : m.Invariant policy) (ht : Tracks (m.trace keys n) (m.ideal keys n)) :
    Follows (m.WrapsAt keys n) (m.trace keys (n + 1)) (m.ideal keys (n + 1)) := by
  have hb : Tracks (m.before keys n) (m.ideal keys n) :=
    ⟨ht.pc, ht.stack, ht.length_le, ht.le_of_mem⟩
  by_cases ha : (m.trace keys (n + 1)).status = .advanced
  · rw [WrapsAt, and_iff_right ha, ideal_of_advanced ha]
    exact step_follows (before_invariant hm n) hb ha
  · rw [ideal_of_not_advanced ha]
    exact .tracks (fun h => ha h.1) (tracks_of_not_advanced hb ha)

theorem trace_tracks (hm : m.Invariant policy) (ht : Tracks m .start)
    (h : ∀ j < n, ¬ m.WrapsAt keys j) : Tracks (m.trace keys n) (m.ideal keys n) := by
  induction n with
  | zero => exact ht
  | succ n ih =>
    have hn : ∀ j < n, ¬ m.WrapsAt keys j := fun j hj => h j (Nat.lt_succ_of_lt hj)
    rcases trace_follows hm (ih hn) with ⟨-, ht⟩ | ⟨hw, -, -⟩
    · exact ht
    · exact absurd hw (h n n.lt_succ_self)

theorem not_wrapsAt_of_pc_eq (hm : m.Invariant policy) (ht : Tracks m .start)
    (hpc : ∀ j ≤ n, (m.trace keys j).pc.toNat = (m.ideal keys j).pc) :
    ∀ j < n, ¬ m.WrapsAt keys j := by
  intro j
  -- up to `j` the machine tracks the ideal control, so at `j` it would leave it
  induction j using Nat.strongRecOn with
  | _ j ih =>
    intro hj
    have htj := trace_tracks hm ht fun k hk => ih k hk (Nat.lt_trans hk hj)
    rcases trace_follows hm htj with ⟨hw, -⟩ | ⟨-, h0, h1⟩
    · exact hw
    · have heq := hpc (j + 1) hj
      rw [h0, h1] at heq
      exact absurd heq (by decide)

/-- At an address past the end the next step faults. -/
theorem faulted_of_past_end (hm : m.Invariant policy) (hs : (m.trace keys n).status = .advanced)
    (hpc : 0xFFE < (m.trace keys n).pc.toNat) :
    (m.trace keys (n + 1)).status = .faulted ∧
      (m.trace keys (n + 1)).fault? = some ⟨.memoryOutOfRange, (m.trace keys n).pc, 0⟩ := by
  have hb : (m.before keys n).Invariant policy := before_invariant hm n
  have hstatus : (m.before keys n).status ≠ .faulted := by
    rw [show (m.before keys n).status = .advanced from hs]
    decide
  have hr : ¬ (m.before keys n).inReach := by
    rw [inReach_iff]
    exact Nat.not_le.2 hpc
  have hstep : m.trace keys (n + 1) = (m.before keys n).signal (some .memoryOutOfRange) 0 :=
    step_of_not_inReach (hb.fault_eq_none hstatus) hr
  rw [hstep]
  exact ⟨rfl, rfl⟩

/-- All along a run from the start of a program, the address of the next
    instruction is the ideal one if and only if no step returns past the end.
    The first step that does goes to `0` where the ideal control goes to
    `0x1000`. An address past the end is not wrapped: the next step faults. -/
theorem trace_pc_eq_iff {rng : Threefry.Pair} {rom : List UInt8}
    (h : (create rng policy).loadRom rom = .ok m) (keys : Nat → Vector Bool 16) (n : Nat) :
    ((∀ j ≤ n, (m.trace keys j).pc.toNat = (m.ideal keys j).pc) ↔ ∀ j < n, ¬ m.WrapsAt keys j) ∧
      ((∀ j < n, ¬ m.WrapsAt keys j) → m.WrapsAt keys n →
        (m.trace keys (n + 1)).pc = 0 ∧ (m.ideal keys (n + 1)).pc = 0x1000) ∧
      ((m.trace keys n).status = .advanced → 0xFFE < (m.trace keys n).pc.toNat →
        (m.trace keys (n + 1)).status = .faulted ∧
          (m.trace keys (n + 1)).fault? = some ⟨.memoryOutOfRange, (m.trace keys n).pc, 0⟩) := by
  obtain ⟨ht, hm⟩ := start_tracks h
  refine ⟨⟨not_wrapsAt_of_pc_eq hm ht, ?_⟩, ?_, faulted_of_past_end hm⟩
  · intro hn j hj
    exact (trace_tracks hm ht fun k hk => hn k (Nat.lt_of_lt_of_le hk hj)).pc
  · intro hn hw
    rcases trace_follows hm (trace_tracks hm ht hn) with ⟨hw', -⟩ | ⟨-, h0, h1⟩
    · exact absurd hw hw'
    · exact ⟨h0, h1⟩

theorem trace_pc_eq_iff_jumpOffset :
    ∃ m, (create ⟨0, 0⟩ .halt).loadRom [0x60, 0xFF, 0xBF, 0xFF] = .ok m ∧
      (m.trace (fun _ => .replicate 16 false) 2).pc.toNat =
        (m.ideal (fun _ => .replicate 16 false) 2).pc ∧
      (m.trace (fun _ => .replicate 16 false) 3).fault? =
        some ⟨.memoryOutOfRange, (m.trace (fun _ => .replicate 16 false) 2).pc, 0⟩ := by
  have h : (create ⟨0, 0⟩ .halt).loadRom [0x60, 0xFF, 0xBF, 0xFF] =
      .ok ((create ⟨0, 0⟩ .halt).loaded [0x60, 0xFF, 0xBF, 0xFF]) := rfl
  obtain ⟨hiff, -, hpast⟩ := trace_pc_eq_iff h (fun _ => .replicate 16 false) 2
  exact ⟨_, h, hiff.2 (by decide +kernel) 2 (Nat.le_refl 2),
    (hpast (by decide +kernel) (by decide +kernel)).2⟩

/-- A program that puts a call at `0xFFE` and jumps there; the subroutine only
    returns. -/
def callAtEnd : List UInt8 :=
  [0x60, 0x22, 0x61, 0x0A, 0xAF, 0xFE, 0xF1, 0x55, 0x1F, 0xFE, 0x00, 0xEE]

/-- The address of the next instruction is not always the ideal one. -/
theorem not_trace_pc_eq :
    ¬ ∀ rng policy rom m keys n, (create rng policy).loadRom rom = .ok m →
      (m.trace keys n).status = .advanced → (m.trace keys n).pc.toNat = (m.ideal keys n).pc := by
  intro h
  have h7 := h ⟨0, 0⟩ .halt callAtEnd ((create ⟨0, 0⟩ .halt).loaded callAtEnd)
    (fun _ => .replicate 16 false) 7 rfl
  revert h7
  decide +kernel

end Machine

end Chip8
