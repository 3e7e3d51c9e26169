import Chip8.Proofs.Machine.Executed

/-!
# The calls that have not returned

The return stack is a bounded list (`Chip8.Proofs.ReturnStack`). Along a run from
reset this list is known: it holds the addresses right after the calls that have
not returned, in the order of the calls, of which twelve bits are kept. A return
goes on at the last of them (`stack_holds`).
-/

namespace Chip8.Machine

open ReturnStack (performAll performList)

variable {m : Machine} {i : Instruction} {calls : List Nat}

/-- The address at which the return from a call at `a` goes on: twelve bits of the
    address right after the call. -/
def returnAddress (a : Nat) : Nat :=
  (a + 2) % 4096

/-- The calls that have not returned, in order, after one more instruction. -/
def callsAfter (calls : List Nat) : Machine × Instruction → List Nat
  | (m, .call _) => calls ++ [m.pc.toNat]
  | (_, .ret) => calls.dropLast
  | _ => calls

/-- The addresses of the calls that have not returned after a run, in order. -/
def openCalls (m : Machine) (as : List Action) : List Nat :=
  (m.executed (as.flatMap Action.events)).foldl callsAfter []

/-! ### One instruction -/

theorem call_holds (hr : m.inReach) (h : m.stack.Holds (calls.map returnAddress)) {a : Fin 4096}
    (hf : m.fetched.failure? (.call a) = none) :
    (m.fetched.exec (.call a)).stack.Holds ((calls ++ [m.pc.toNat]).map returnAddress) := by
  obtain ⟨s, hp, he⟩ := exec_call hf
  obtain ⟨-, hs⟩ := h.push? hp
  have hmod : ((m.fetched.pc.toNat : Int) % 4096).toNat = returnAddress m.pc.toNat := by
    rw [pc_fetched hr, returnAddress]
    omega
  rw [hmod] at hs
  rw [he, List.map_append, List.map_singleton]
  exact hs

theorem ret_holds (h : m.stack.Holds (calls.map returnAddress))
    (hf : m.fetched.failure? .ret = none) :
    (m.fetched.exec .ret).stack.Holds (calls.dropLast.map returnAddress) ∧
      (calls.map returnAddress).getLast? = some (m.fetched.exec .ret).pc.toNat := by
  obtain ⟨b, s, hp, he⟩ := exec_ret hf
  obtain ⟨l, hl, hs⟩ := h.pop? hp
  rw [he, List.map_dropLast, hl, List.dropLast_concat, List.getLast?_concat]
  exact ⟨hs, rfl⟩

/-- Executing an instruction changes the calls that the stack holds as it changes
    those that have not returned. -/
theorem exec_holds (h : m.stack.Holds (calls.map returnAddress)) (hi : m.executes? = some i) :
    m.step.machine.stack.Holds ((callsAfter calls (m, i)).map returnAddress) := by
  obtain ⟨-, hstop, hw, hn, hstep⟩ := executes?_eq_some hi
  have hf := failure?_fetched_eq_none hstop hn
  rw [hstep]
  by_cases ht : i.transfers = false
  · rw [(fetched_goesOn hstop hw hn).stack ht]
    cases i with
    | ret | call a => cases ht
    | _ => exact h
  · cases i with
    | call a => exact call_holds (inReach_of_stop? hstop) h hf
    | ret => exact (ret_holds h hf).1
    | jump a | jumpOffset a => exact h
    | _ => exact absurd rfl ht

/-! ### Runs -/

/-- The stack holds what is kept of the calls that have not returned after every
    event. -/
theorem on_holds (m : Machine) (calls : List Nat) (e : Event)
    (h : m.stack.Holds (calls.map returnAddress)) :
    (m.on e).stack.Holds (((m.executedOn e).foldl callsAfter calls).map returnAddress) := by
  cases e with
  | step =>
    cases hi : m.executes? with
    | some i =>
      rw [executedOn, hi]
      exact exec_holds h hi
    | none =>
      obtain ⟨_, _, _, _, hstep⟩ := step_of_executes?_eq_none hi
      rw [executedOn, hi, on, hstep]
      exact h
  | load rom =>
    obtain ⟨memory, hl⟩ := loaded_eq m rom
    rw [on, hl]
    exact h
  | endFrame =>
    rw [on, endFrame]
    split_ifs <;> exact h
  | tick | setKeys keys => exact h

theorem run_holds (rng : Threefry.Pair) (policy : Policy) (as : List Action) :
    ((create rng policy).run as).stack.Holds
      (((create rng policy).openCalls as).map returnAddress) := by
  have h : (create rng policy).stack.Holds (([] : List Nat).map returnAddress) :=
    ReturnStack.holds_empty
  rw [run_eq_history]
  exact history_foldl_executed
    (P := fun m (calls : List Nat) => m.stack.Holds (calls.map returnAddress))
    on_holds h _

/-- A stack that is only pushed and popped is a list of at most sixteen numbers: it
    gives the replies that the list gives, and holds what is left of it. After a run
    from reset it holds what is kept of the addresses right after the calls that have
    not returned, in order, and a return that does not fault goes on at the last of
    them. -/
theorem stack_holds :
    (∀ rs, (performAll ReturnStack.perform .empty rs).1 = (performAll performList [] rs).1 ∧
        (performAll ReturnStack.perform .empty rs).2.Holds (performAll performList [] rs).2) ∧
      ∀ rng policy as,
        ((create rng policy).run as).stack.Holds
          (((create rng policy).openCalls as).map returnAddress) ∧
        (((create rng policy).run as).Reads .ret →
          ((create rng policy).run as).step.machine.status = .advanced →
          (((create rng policy).openCalls as).map returnAddress).getLast? =
            some ((create rng policy).run as).step.machine.pc.toNat) := by
  refine ⟨ReturnStack.performAll_holds ReturnStack.holds_empty, fun rng policy as => ?_⟩
  have hm := run_induction on_invariant (create_invariant rng policy) as
  refine ⟨run_holds rng policy as, fun hr ha => ?_⟩
  have hi := executes?_eq_some_iff.2 ⟨hm.fault_eq_none_of_step ha, hr, ha⟩
  obtain ⟨-, hstop, -, hn, hstep⟩ := executes?_eq_some hi
  rw [hstep]
  exact (ret_holds (run_holds rng policy as) (failure?_fetched_eq_none hstop hn)).2

end Chip8.Machine
