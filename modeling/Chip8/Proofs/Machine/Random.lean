import Chip8.Proofs.Machine.Executed
import Chip8.Proofs.Machine.Footprint
import Mathlib.Logic.Function.Iterate

/-!
# The random stream along a run

The key of the random stream is written by one instruction only, the one that draws a
random byte: it spends a subkey and moves on to the next key. A word that encodes
another instruction, or none, leaves the key alone (`rng_execute`), and so does every
event but a step that executes a draw (`randomDrawsOn_cases`).

The key therefore counts the draws of a history, and each draw finds the key that the
draws before it have left (`rng_history`). What is drawn next depends on the seed and on
the number of draws, and on nothing else that a run does (`run_draws`).
-/

namespace Chip8

/-- An executed instruction that draws a random byte: the machine that executes it, the
    register that the byte goes to, and the mask. -/
structure RandomDraw where
  machine : Machine
  register : Fin 16
  mask : UInt8

namespace RandomDraw

/-- The draw of an executed instruction, if it draws a random byte. -/
def of? : Machine × Instruction → Option RandomDraw
  | (m, .random x k) => some ⟨m, x, k⟩
  | _ => none

/-- The byte that is drawn, before it is masked. -/
def byte (d : RandomDraw) : UInt8 :=
  Threefry.draw d.machine.rng

/-- What the register holds after the draw. -/
def value (d : RandomDraw) : UInt8 :=
  d.machine.step.machine.v.get d.register

end RandomDraw

namespace Machine

variable {m : Machine} {i : Instruction} {e : Event}

/-! ### One word -/

theorem rng_mem_writes_iff : .rng ∈ m.writes i ↔ ∃ x k, i = .random x k := by
  cases i with
  | alu op x y => cases op <;> simp [writes, Alu.setsFlag]
  | _ => simp [writes, Part.bytes]

/-- A word that does not draw a random byte leaves the random stream alone, whether it
    is executed, waits, fails or is unknown. -/
theorem rng_execute {w : UInt16} (h : ∀ x k, w ≠ (Instruction.random x k).encode) :
    (m.execute w).machine.rng = m.rng := by
  refine execute_sameOff m w .rng ?_
  rintro (⟨_, hp⟩ | ⟨_, hp⟩ | ⟨hi, _, _, hp⟩)
  · simp at hp
  · simp at hp
  · obtain ⟨x, k, rfl⟩ := rng_mem_writes_iff.1 hp
    exact h x k hi

/-! ### One event -/

/-- The instruction that an event executes, if it draws a random byte. -/
def randomDrawsOn (m : Machine) (e : Event) : List RandomDraw :=
  (m.executedOn e).filterMap RandomDraw.of?

/-- A step that draws a random byte moves the stream on, and leaves the masked byte in
    its register. -/
theorem step_of_random {x : Fin 16} {k : UInt8} (h : m.executes? = some (.random x k)) :
    m.step.machine.rng = Threefry.next m.rng ∧
      m.step.machine.v.get x = Threefry.draw m.rng &&& k := by
  obtain ⟨-, -, hstep⟩ := exec_of_executes? h
  rw [hstep]
  exact ⟨rfl, Vector.getElem_set_self _⟩

/-- A step that does not draw a random byte leaves the stream alone. -/
theorem rng_step (h : ∀ x k, m.executes? ≠ some (.random x k)) :
    m.step.machine.rng = m.rng := by
  cases hi : m.executes? with
  | none =>
    obtain ⟨_, _, _, _, hstep⟩ := step_of_executes?_eq_none hi
    rw [hstep]
  | some i =>
    obtain ⟨hf, hw, hstep⟩ := exec_of_executes? hi
    rw [hstep]
    refine exec_sameOff hf hw .rng fun hp => ?_
    obtain ⟨x, k, rfl⟩ := rng_mem_writes_iff.1 hp
    exact h x k hi

theorem rng_on_of_ne_step (h : e ≠ .step) : (m.on e).rng = m.rng := by
  cases e with
  | load rom =>
    obtain ⟨memory, hl⟩ := loaded_eq m rom
    rw [on, hl]
  | step => exact absurd rfl h
  | endFrame =>
    rw [on, endFrame]
    split <;> rfl
  | tick | setKeys keys => rfl

/-- An event draws nothing and leaves the random stream alone, or it is a step that
    draws a byte and moves the stream on. -/
theorem randomDrawsOn_cases (m : Machine) (e : Event) :
    (m.randomDrawsOn e = [] ∧ (m.on e).rng = m.rng) ∨
      ∃ x k, e = .step ∧ m.executes? = some (.random x k) ∧
        m.randomDrawsOn e = [⟨m, x, k⟩] ∧ (m.on e).rng = Threefry.next m.rng := by
  by_cases he : e = .step
  · subst he
    by_cases hr : ∃ x k, m.executes? = some (.random x k)
    · obtain ⟨x, k, hi⟩ := hr
      refine .inr ⟨x, k, rfl, hi, ?_, (step_of_random hi).1⟩
      rw [randomDrawsOn, executedOn, hi]
      rfl
    · push Not at hr
      refine .inl ⟨?_, rng_step hr⟩
      rw [randomDrawsOn, executedOn]
      cases hi : m.executes? with
      | none => rfl
      | some i =>
        cases i with
        | random x k => exact absurd hi (hr x k)
        | _ => rfl
  · refine .inl ⟨?_, rng_on_of_ne_step he⟩
    cases e with
    | step => exact absurd rfl he
    | _ => rfl

/-! ### Runs -/

/-- The instructions executed in a history that draw a random byte, in order. -/
def randomDraws (m : Machine) (es : List Event) : List RandomDraw :=
  (m.executed es).filterMap RandomDraw.of?

theorem randomDraws_cons (m : Machine) (e : Event) (es : List Event) :
    m.randomDraws (e :: es) = m.randomDrawsOn e ++ (m.on e).randomDraws es :=
  List.filterMap_append

/-- A history moves the random stream on by one key for each byte that it draws, and
    each draw spends the subkey of the key that the draws before it have left. -/
theorem rng_history (m : Machine) (es : List Event) :
    (m.history es).rng = Threefry.next^[(m.randomDraws es).length] m.rng ∧
      ∀ j d, (m.randomDraws es)[j]? = some d →
        d.machine.executes? = some (.random d.register d.mask) ∧
        d.byte = Threefry.byte (Threefry.subkey (Threefry.next^[j] m.rng)) ∧
        d.value = d.byte &&& d.mask := by
  induction es generalizing m with
  | nil =>
    refine ⟨rfl, fun j d hd => ?_⟩
    cases hd
  | cons e es ih =>
    obtain ⟨hkey, hdraws⟩ := ih (m.on e)
    have hcons : m.history (e :: es) = (m.on e).history es := rfl
    rw [randomDraws_cons, hcons, hkey]
    rcases randomDrawsOn_cases m e with ⟨hnone, hrng⟩ | ⟨x, k, -, hi, hone, hrng⟩
    · rw [hrng] at hdraws
      rw [hnone, hrng]
      exact ⟨rfl, hdraws⟩
    · -- the draws of the rest of the history are one key further on
      rw [hrng] at hdraws
      rw [hone, hrng]
      refine ⟨rfl, ?_⟩
      rintro (_ | j) d hd
      · obtain rfl := Option.some.inj hd
        exact ⟨hi, rfl, (step_of_random hi).2⟩
      · exact hdraws j d hd

/-- Along a run from reset the random stream moves on by one key for each instruction
    executed that draws a random byte, and each of them leaves the byte of the subkey
    that is then due in its register, masked. No other word moves the stream on,
    whatever becomes of it, nor does any other event. So two runs from the same key
    draw the same bytes, one by one, whatever else is different in them. -/
theorem run_draws (rng : Threefry.Pair) (policy : Policy) (as : List Action) :
    let draws := (create rng policy).randomDraws (as.flatMap Action.events)
    ((create rng policy).run as).rng = Threefry.next^[draws.length] rng ∧
      (∀ j d, draws[j]? = some d →
        d.machine.executes? = some (.random d.register d.mask) ∧
        d.byte = Threefry.byte (Threefry.subkey (Threefry.next^[j] rng)) ∧
        d.value = d.byte &&& d.mask) ∧
      (∀ (m : Machine) (w : UInt16), (∀ x k, w ≠ (Instruction.random x k).encode) →
        (m.execute w).machine.rng = m.rng) ∧
      (∀ (m : Machine) (e : Event), (m.on e).rng ≠ m.rng →
        e = .step ∧ ∃ x k, m.executes? = some (.random x k)) ∧
      ∀ (policy' : Policy) (as' : List Action) (j : Nat) (d d' : RandomDraw), draws[j]? = some d →
        ((create rng policy').randomDraws (as'.flatMap Action.events))[j]? = some d' →
        d'.byte = d.byte := by
  have hrun (p : Policy) (as : List Action) :=
    rng_history (create rng p) (as.flatMap Action.events)
  obtain ⟨hkey, hdraws⟩ := hrun policy as
  refine ⟨?_, hdraws, fun m w => rng_execute, ?_, ?_⟩
  · rw [run_eq_history]
    exact hkey
  · intro m e hne
    rcases randomDrawsOn_cases m e with ⟨-, hrng⟩ | ⟨x, k, he, hi, -, -⟩
    · exact absurd hrng hne
    · exact ⟨he, x, k, hi⟩
  · intro policy' as' j d d' hd hd'
    rw [(hdraws j d hd).2.1, ((hrun policy' as').2 j d' hd').2.1]
    rfl

-- two draws with another instruction between them, and a step that stops after them
example : (((create ⟨0, 0⟩ .halt).loaded [0xC0, 0xFF, 0x60, 0x00, 0xC1, 0x0F]).randomDraws
    (.replicate 4 .step)).map RandomDraw.value = [101, 175 &&& 0x0F] := by decide +kernel

end Machine

end Chip8
