import Chip8.Proofs.Machine.Frames

/-!
# Where randomness and input enter

Only four instructions look at the random stream or at the keys: the one that draws
a random byte, unless the byte is masked by zero, the two that skip by a key and the
one that waits for a key (`Instruction.readsInput`).

Two machines that are the same but for the stream and the keys (`SameButInput`)
therefore stay so, step by step, as long as the first of them executes none of these
instructions (`step_sameButInput`), and execute the same words
(`nextWord?_sameButInput`), whatever keys the two are given before each frame
(`sameButInput_runs`).
-/

namespace Chip8

/-- Whether an instruction looks at the random stream or at the keys. -/
def Instruction.readsInput : Instruction → Bool
  | .random _ k => k ≠ 0
  | .skipKey _ | .skipNoKey _ | .waitKey _ => true
  | _ => false

namespace Machine

variable {m m' m'' : Machine} {i : Instruction}

/-- `m'` is the same as `m` but for the random stream and the keys. -/
def SameButInput (m m' : Machine) : Prop :=
  m' = { m with rng := m'.rng, keypad := m'.keypad }

/-- The machine with another random stream and other keys. -/
def withInput (m : Machine) (rng : Threefry.Pair) (keypad : Vector Bool 16) : Machine :=
  { m with rng, keypad }

theorem sameButInput_withInput (m : Machine) (rng : Threefry.Pair) (keypad : Vector Bool 16) :
    m.SameButInput (m.withInput rng keypad) := rfl

theorem SameButInput.exists_eq (h : m.SameButInput m') :
    ∃ rng keypad, m' = m.withInput rng keypad :=
  ⟨m'.rng, m'.keypad, h⟩

/-! ### One instruction -/

variable {rng : Threefry.Pair} {keypad : Vector Bool 16}

theorem skipIf_withInput (c : Bool) :
    (m.withInput rng keypad).skipIf c = (m.skipIf c).withInput rng keypad := by
  cases c <;> rfl

theorem execAlu_withInput (op : Alu) (x y : Fin 16) :
    (m.withInput rng keypad).execAlu op x y = (m.execAlu op x y).withInput rng keypad := by
  cases op <;> rfl

/-- A random byte masked by zero is zero, though the stream moves on. -/
theorem exec_random_zero (m : Machine) (x : Fin 16) :
    m.exec (.random x 0) = { m.setV x 0 with rng := Threefry.next m.rng } := by
  rw [exec, UInt8.and_zero]
  rfl

variable (m rng keypad) in
/-- An instruction that does not look at the random stream or at the keys does the
    same whatever they are. It may move the stream on. -/
theorem exec_withInput (hi : i.readsInput = false) :
    ∃ rng', (m.withInput rng keypad).exec i = (m.exec i).withInput rng' keypad := by
  cases i with
  | ret =>
    refine ⟨rng, ?_⟩
    simp only [exec, withInput]
    cases m.stack.pop? <;> rfl
  | call a =>
    refine ⟨rng, ?_⟩
    simp only [exec, withInput]
    cases m.stack.push? m.pc.toNat <;> rfl
  | random x k =>
    obtain rfl : k = 0 := by simpa [Instruction.readsInput] using hi
    exact ⟨Threefry.next rng, by rw [exec_random_zero, exec_random_zero]; rfl⟩
  | waitKey x | skipKey x | skipNoKey x => cases hi
  | skipEq x k | skipNe x k | skipEqReg x y | skipNeReg x y => exact ⟨rng, skipIf_withInput _⟩
  | alu op x y => exact ⟨rng, execAlu_withInput op x y⟩
  | draw x y n | decimal x | store x | restore x =>
    -- the check of the range is the same on both sides
    refine ⟨rng, ?_⟩
    simp only [exec, apply_ite (withInput · rng keypad)]
    rfl
  | _ => exact ⟨rng, rfl⟩

/-! ### One step -/

/-- Executing a word does not look at the random stream or at the keys. -/
def IgnoresInput (w : UInt16) : Prop :=
  ∀ i ∈ Instruction.ofWord? w, i.readsInput = false

instance (w : UInt16) : Decidable (IgnoresInput w) :=
  inferInstanceAs (Decidable (∀ i ∈ Instruction.ofWord? w, i.readsInput = false))

/-- The word that the next step executes, after its address: there is one if the
    machine runs and the word lies in memory. The step may well wait or fail on it. -/
def nextWord? (m : Machine) : Option (UInt16 × UInt16) :=
  if m.fault = none ∧ m.inReach then some (m.pc, m.word) else none

theorem execute_withInput {w : UInt16} (hw : IgnoresInput w) :
    ∃ rng', (m.withInput rng keypad).execute w =
      ⟨(m.execute w).machine.withInput rng' keypad, (m.execute w).reports⟩ := by
  cases hi : Instruction.ofWord? w with
  | some i =>
    obtain ⟨rng', he⟩ := exec_withInput m rng keypad (hw i hi)
    refine ⟨rng', ?_⟩
    simp only [execute, hi, he]
    rfl
  | none =>
    refine ⟨rng, ?_⟩
    have hp : (m.withInput rng keypad).policy = m.policy := rfl
    simp only [execute, hi, executeUnknown, hp]
    cases m.policy <;> rfl

variable (rng keypad) in
/-- A step that executes no word that looks at the random stream or at the keys does
    the same whatever they are. -/
theorem step_withInput (hw : ∀ p ∈ m.nextWord?, IgnoresInput p.2) :
    ∃ rng', (m.withInput rng keypad).step =
      ⟨m.step.machine.withInput rng' keypad, m.step.reports⟩ := by
  cases hf : m.fault with
  | some f =>
    have hm : m.halted = true := by rw [halted, hf, Option.isSome_some]
    have hm' : (m.withInput rng keypad).halted = true := hm
    exact ⟨rng, by rw [step_of_halted hm, step_of_halted hm']; rfl⟩
  | none =>
    have hf' : (m.withInput rng keypad).fault = none := hf
    by_cases hr : m.inReach
    · have hr' : (m.withInput rng keypad).inReach := hr
      have hword : IgnoresInput m.word := hw (m.pc, m.word) (if_pos ⟨hf, hr⟩)
      rw [step_of_inReach hf hr, step_of_inReach hf' hr']
      exact execute_withInput (m := m.fetched) hword
    · have hr' : ¬ (m.withInput rng keypad).inReach := hr
      exact ⟨rng, by rw [step_past_end hf hr, step_past_end hf' hr']; rfl⟩

theorem step_sameButInput (h : m.SameButInput m') (hw : ∀ p ∈ m.nextWord?, IgnoresInput p.2) :
    m.step.machine.SameButInput m'.step.machine := by
  obtain ⟨rng, keypad, rfl⟩ := h.exists_eq
  obtain ⟨rng', hstep⟩ := step_withInput rng keypad hw
  rw [hstep]
  exact sameButInput_withInput _ _ _

theorem nextWord?_sameButInput (h : m.SameButInput m') : m'.nextWord? = m.nextWord? := by
  obtain ⟨rng, keypad, rfl⟩ := h.exists_eq
  rfl

/-! ### Runs -/

/-- The word that an event executes, after its address. -/
def wordsOn (m : Machine) : Event → List (UInt16 × UInt16)
  | .step => m.nextWord?.toList
  | _ => []

/-- The words that are executed in a history, each after its address. -/
def words (m : Machine) (es : List Event) : List (UInt16 × UInt16) :=
  m.collect wordsOn es

theorem words_frame (m : Machine) (f : Frame) :
    m.words f.events = (f.keys.foldl setKeys m).words (.replicate f.instructions.toNat .step) :=
  collect_frame (fun _ _ => rfl) (fun _ => rfl) m f

theorem words_cons (m : Machine) (e : Event) (es : List Event) :
    m.words (e :: es) = m.wordsOn e ++ (m.on e).words es := rfl

theorem words_append (m : Machine) (es es' : List Event) :
    m.words (es ++ es') = m.words es ++ (m.history es).words es' :=
  m.collect_append es es'

theorem steps_sameButInput (h : m.SameButInput m') {n : Nat}
    (hw : ∀ p ∈ m.words (.replicate n .step), IgnoresInput p.2) :
    m'.words (.replicate n .step) = m.words (.replicate n .step) ∧
      (m.history (.replicate n .step)).SameButInput (m'.history (.replicate n .step)) := by
  induction n generalizing m m' with
  | zero => exact ⟨rfl, h⟩
  | succ n ih =>
    rw [List.replicate_succ, words_cons, List.forall_mem_append] at hw
    have hnext : m'.wordsOn .step = m.wordsOn .step :=
      congrArg Option.toList (nextWord?_sameButInput h)
    have hstep : m.step.machine.SameButInput m'.step.machine :=
      step_sameButInput h fun p hp => hw.1 p (Option.mem_toList.2 hp)
    obtain ⟨hwords, hrun⟩ := ih hstep hw.2
    rw [List.replicate_succ, words_cons, words_cons, hnext]
    exact ⟨congrArg _ hwords, hrun⟩

theorem setKeys_sameButInput (h : m.SameButInput m') (l l' : List (Vector Bool 16)) :
    (l.foldl setKeys m).SameButInput (l'.foldl setKeys m') := by
  obtain ⟨rng, keypad, rfl⟩ := h.exists_eq
  obtain ⟨k, hk⟩ := foldl_setKeys m l
  obtain ⟨k', hk'⟩ := foldl_setKeys (m.withInput rng keypad) l'
  rw [hk, hk']
  rfl

theorem endFrame_sameButInput (h : m.SameButInput m') : m.endFrame.SameButInput m'.endFrame := by
  obtain ⟨rng, keypad, rfl⟩ := h.exists_eq
  have hm : (m.withInput rng keypad).halted = m.halted := rfl
  rw [endFrame, endFrame, hm]
  split <;> rfl

/-- Two frames of as many instructions, with any keys, keep two machines the same but
    for the random stream and the keys. -/
theorem afterFrame_sameButInput (h : m.SameButInput m') {f f' : Frame}
    (hf : f'.instructions = f.instructions)
    (hw : ∀ p ∈ m.words f.events, IgnoresInput p.2) :
    m'.words f'.events = m.words f.events ∧ (m.afterFrame f).SameButInput (m'.afterFrame f') := by
  have hkeys := setKeys_sameButInput h f.keys f'.keys
  rw [words_frame] at hw
  obtain ⟨hwords, hrun⟩ := steps_sameButInput hkeys hw
  rw [words_frame, words_frame, hf, afterFrame_eq_endFrame, afterFrame_eq_endFrame, beforeEnd,
    beforeEnd, hf, ← history_replicate_step, ← history_replicate_step]
  exact ⟨hwords, endFrame_sameButInput hrun⟩

theorem afterFrames_sameButInput (h : m.SameButInput m') {fs fs' : List Frame}
    (hfs : fs'.map (·.instructions) = fs.map (·.instructions))
    (hw : ∀ p ∈ m.words (fs.flatMap Frame.events), IgnoresInput p.2) :
    m'.words (fs'.flatMap Frame.events) = m.words (fs.flatMap Frame.events) ∧
      (m.afterFrames fs).SameButInput (m'.afterFrames fs') := by
  induction fs generalizing m m' fs' with
  | nil =>
    obtain rfl := List.map_eq_nil_iff.1 hfs
    exact ⟨rfl, h⟩
  | cons f fs ih =>
    obtain ⟨f', fs', rfl, hf, hfs⟩ := List.map_eq_cons_iff.1 hfs
    rw [List.flatMap_cons, words_append, List.forall_mem_append, ← afterFrame_eq_history] at hw
    obtain ⟨hfirst, hnext⟩ := afterFrame_sameButInput h hf hw.1
    obtain ⟨hwords, hrun⟩ := ih hnext hfs hw.2
    rw [List.flatMap_cons, List.flatMap_cons, words_append, words_append, hfirst,
      ← afterFrame_eq_history, ← afterFrame_eq_history, hwords]
    exact ⟨rfl, hrun⟩

/-- Two machines that are the same but for the random stream and the keys stay so, and
    execute the same words at the same addresses, as long as the first executes no
    word that looks at the stream or at the keys: over any number of steps, and over
    any frames, whatever keys each of the two is given before them. -/
theorem sameButInput_runs (h : m.SameButInput m') :
    (∀ n, (∀ p ∈ m.words (.replicate n .step), IgnoresInput p.2) →
        m'.words (.replicate n .step) = m.words (.replicate n .step) ∧
          (m.after n).SameButInput (m'.after n)) ∧
      ∀ fs fs' : List Frame, fs'.map (·.instructions) = fs.map (·.instructions) →
        (∀ p ∈ m.words (fs.flatMap Frame.events), IgnoresInput p.2) →
        m'.words (fs'.flatMap Frame.events) = m.words (fs.flatMap Frame.events) ∧
          (m.afterFrames fs).SameButInput (m'.afterFrames fs') := by
  refine ⟨fun n hw => ?_, fun fs fs' hfs hw => afterFrames_sameButInput h hfs hw⟩
  rw [← history_replicate_step, ← history_replicate_step]
  exact steps_sameButInput h hw

/-- A machine in a loop that draws random bytes, but masks them by zero. -/
def drawingMasked : Machine :=
  (create ⟨0, 0⟩ .halt).loaded [0xC0, 0x00, 0x70, 0x01, 0x12, 0x00]

/-- Two frames, the second with every key down, or up. -/
def framesWith (down : Bool) : List Frame :=
  [⟨[], 3⟩, ⟨[.replicate 16 down], 2⟩]

theorem sameButInput_runs_drawingMasked :
    drawingMasked.SameButInput (drawingMasked.withInput ⟨1, 2⟩ (.replicate 16 true)) ∧
      (∀ p ∈ drawingMasked.words ((framesWith true).flatMap Frame.events), IgnoresInput p.2) ∧
      (drawingMasked.afterFrames (framesWith true)).SameButInput
        ((drawingMasked.withInput ⟨1, 2⟩ (.replicate 16 true)).afterFrames (framesWith false)) ∧
      (drawingMasked.afterFrames (framesWith true)).rng ≠
        ((drawingMasked.withInput ⟨1, 2⟩ (.replicate 16 true)).afterFrames
          (framesWith false)).rng := by
  have hall : (drawingMasked.words ((framesWith true).flatMap Frame.events)).all
      (fun p => decide (IgnoresInput p.2)) = true := by decide +kernel
  have hw : ∀ p ∈ drawingMasked.words ((framesWith true).flatMap Frame.events),
      IgnoresInput p.2 := fun p hp => of_decide_eq_true (List.all_eq_true.1 hall p hp)
  obtain ⟨-, hframes⟩ :=
    sameButInput_runs (sameButInput_withInput drawingMasked ⟨1, 2⟩ (.replicate 16 true))
  obtain ⟨-, hsame⟩ := hframes (framesWith true) (framesWith false) rfl hw
  exact ⟨sameButInput_withInput _ _ _, hw, hsame, by decide +kernel⟩

end Machine

end Chip8
