import Chip8.Proofs.Machine.Executed
import Chip8.Proofs.Machine.Policy

/-!
# Series of frames

A series of frames (`Machine.runFrames`) is nothing but that many frames, run one
by one (`Machine.frames`), with the screen after each of them: series that follow
each other make one series (`frames_add`), and a progress bar changes nothing
(`scan_decorate`).

A frame that ends with the machine stopped is the last that changes anything. It
takes the sound event back, and from then on a frame finds nothing left to do
(`emulate_of_stopped`). All this together is `runFrames_composes`.

A host may also change the keys before a frame and run a different number of
instructions in each (`Frame`).
-/

namespace Chip8

namespace Outcome

theorem andThen_silent (o : Outcome) : o.andThen silent = o := by
  rw [andThen, reports_silent, Array.append_empty, machine_silent]

theorem andThen_assoc (o : Outcome) (f g : Machine → Outcome) :
    (o.andThen f).andThen g = o.andThen fun m => (f m).andThen g := by
  simp only [andThen, Array.append_assoc]

end Outcome

namespace Machine

variable {m : Machine} {k : Int}

/-- What `n` frames of `k` instructions lead to when they are run one by one. -/
def frames (m : Machine) (k : Int) : Nat → Outcome
  | 0 => .silent m
  | n + 1 => (m.frames k n).andThen (emulate k)

/-! ### One frame -/

theorem machine_emulate_eq_endFrame (m : Machine) (k : Int) :
    (m.emulate k).machine = (m.after k.toNat).endFrame := rfl

theorem emulate_of_nonpos (h : k ≤ 0) (m : Machine) : m.emulate k = .silent m.endFrame := by
  rw [emulate, Int.toNat_of_nonpos h]
  exact Outcome.silent_andThen _ _

theorem endFrame_of_halted (h : m.halted = true) : m.endFrame = { m with soundEvent := false } :=
  if_pos h

theorem endFrame_of_fault_eq_none (h : m.fault = none) : m.endFrame = m.tick := by
  rw [endFrame, halted_eq_false_iff.2 h, if_neg Bool.false_ne_true]

@[simp]
theorem fault_endFrame (m : Machine) : m.endFrame.fault = m.fault := by
  rw [endFrame]
  split <;> rfl

@[simp]
theorem fault?_endFrame (m : Machine) : m.endFrame.fault? = m.fault? := by
  rw [endFrame]
  split <;> rfl

theorem halted_iff : m.halted = true ↔ m.fault ≠ none :=
  Option.isSome_iff_ne_none

theorem soundEvent_endFrame_of_fault (h : m.fault ≠ none) : m.endFrame.soundEvent = false := by
  rw [endFrame_of_halted (halted_iff.2 h)]

/-- A frame that ends with the machine stopped takes the sound event back. -/
theorem soundEvent_emulate_of_fault (h : (m.emulate k).machine.fault ≠ none) :
    (m.emulate k).machine.soundEvent = false := by
  rw [machine_emulate_eq_endFrame, fault_endFrame] at h
  exact soundEvent_endFrame_of_fault h

/-- Once the sound event has been taken back, a frame does nothing to a machine that
    has stopped. -/
theorem emulate_of_stopped (h : m.fault ≠ none) (hs : m.soundEvent = false) :
    m.emulate k = .silent m := by
  have hm : m.halted = true := halted_iff.2 h
  rw [emulate, steps_of_halted hm, Outcome.silent_andThen, endFrame_of_halted hm, ← hs]

/-- A running machine stops in its next step: at the address where the step finds it, on the
    word there, or on zero if the address lies past the end of memory. -/
structure StopsWith (m : Machine) (a : MachineFault) : Prop where
  running : m.fault = none
  stops : m.step.machine.fault? = some a
  pc : a.pc = m.pc
  word : a.word = if m.pc.toNat ≤ 0xFFE then m.memory.bigEndian m.pc.toNat else 0

/-- A machine that has stopped after a number of steps has stopped in one of them. -/
theorem exists_stopsWith_after {n : Nat} {a : MachineFault} (hm : m.fault = none)
    (h : (m.after n).fault? = some a) : ∃ j < n, (m.after j).StopsWith a := by
  induction n with
  | zero =>
    rw [fault?, show (m.after 0).fault = none from hm] at h
    cases h
  | succ n ih =>
    rw [after_succ] at h
    cases hf : (m.after n).fault with
    | none =>
      have haccount := (step_cases hf).fault?_eq hf
      rw [h] at haccount
      obtain ⟨⟨f, w⟩, hstop, rfl⟩ := Option.map_eq_some_iff.1 haccount.symm
      exact ⟨n, n.lt_succ_self, hf, h, rfl, stop?_word hstop⟩
    | some f =>
      rw [step_of_fault hf] at h
      obtain ⟨j, hj, hstep⟩ := ih h
      exact ⟨j, Nat.lt_succ_of_lt hj, hstep⟩

/-! ### Series -/

theorem frames_succ (m : Machine) (k : Int) (n : Nat) :
    m.frames k (n + 1) = (m.frames k n).andThen (emulate k) := rfl

/-- Series of frames that follow each other make one series. -/
theorem frames_add (m : Machine) (k : Int) (a b : Nat) :
    m.frames k (a + b) = (m.frames k a).andThen fun m => m.frames k b := by
  induction b with
  | zero => exact (Outcome.andThen_silent _).symm
  | succ b ih => rw [Nat.add_succ, frames_succ, ih, Outcome.andThen_assoc]; rfl

/-- A recorded series is the frames one by one, with the screen after each. -/
theorem runFrames_eq_frames (m : Machine) (k : Int) (n : Nat) :
    m.runFrames n k =
      (m.frames k n, .ofFn fun i : Fin n => (m.frames k (i + 1)).machine.display) := by
  induction n with
  | zero => rw [Array.ofFn_zero]; rfl
  | succ n ih =>
    rw [runFrames] at ih
    rw [runFrames, Body.scan_succ, ih, Array.ofFn_succ]
    rfl

theorem runFrames_add (m : Machine) (k : Int) (a b : Nat) :
    m.runFrames (a + b) k =
      ((m.runFrames a k).1.andThen fun m => (m.runFrames b k).1,
        (m.runFrames a k).2 ++ ((m.runFrames a k).1.machine.runFrames b k).2) := by
  have hd (i : Nat) : (m.frames k (a + i + 1)).machine =
      ((m.frames k a).machine.frames k (i + 1)).machine := by
    rw [Nat.add_assoc, frames_add, Outcome.machine_andThen]
  simp only [runFrames_eq_frames, Array.ofFn_add, Fin.val_natAdd, Fin.val_castLE, hd]
  rw [frames_add]

/-- A machine that has stopped at the end of a frame does nothing in the frames
    after it. -/
theorem frames_of_stopped {j : Nat} (h : (m.frames k (j + 1)).machine.fault ≠ none) {i : Nat}
    (hij : j ≤ i) : m.frames k (i + 1) = m.frames k (j + 1) := by
  have hs : (m.frames k (j + 1)).machine.soundEvent = false := soundEvent_emulate_of_fault h
  obtain ⟨d, rfl⟩ := Nat.exists_eq_add_of_le hij
  induction d with
  | zero => rfl
  | succ d ih =>
    rw [← Nat.add_assoc, frames_succ, ih (Nat.le_add_right j d), Outcome.andThen,
      emulate_of_stopped h hs]
    exact Outcome.andThen_silent _

/-- Series of frames compose: a series is the frames one by one, with the screen
    after each, series that follow each other make one, and reporting to a progress
    bar changes nothing. Once a frame has ended with the machine stopped, the sound
    event is taken back, and every later frame leaves the machine and the recorded
    screen as they are. -/
theorem runFrames_composes (m : Machine) (k : Int) :
    (∀ a b, m.runFrames (a + b) k =
        ((m.runFrames a k).1.andThen fun m => (m.runFrames b k).1,
          (m.runFrames a k).2 ++ ((m.runFrames a k).1.machine.runFrames b k).2)) ∧
      (∀ n, m.runFrames n k =
        (m.frames k n, .ofFn fun i : Fin n => (m.frames k (i + 1)).machine.display)) ∧
      (k ≤ 0 → m.emulate k = .silent m.endFrame) ∧
      (∀ n, ((m.runFramesReporting n k).1.1, (m.runFramesReporting n k).2) = m.runFrames n k) ∧
      ∀ j, (m.frames k (j + 1)).machine.fault ≠ none →
        (m.frames k (j + 1)).machine.soundEvent = false ∧
          ∀ i, j ≤ i → m.frames k (i + 1) = m.frames k (j + 1) ∧
            ∀ n, i < n → (m.runFrames n k).2[i]? = some (m.frames k (j + 1)).machine.display := by
  refine ⟨runFrames_add m k, runFrames_eq_frames m k, fun hk => emulate_of_nonpos hk m, ?_, ?_⟩
  · intro n
    obtain ⟨hs, hd⟩ := scan_decorate (frame k) n (Progress.rate n none) n (.silent m) .start
    exact Prod.ext hs hd
  · intro j hj
    refine ⟨soundEvent_emulate_of_fault hj, fun i hij => ?_⟩
    have hi := frames_of_stopped hj hij
    refine ⟨hi, fun n hn => ?_⟩
    rw [runFrames_eq_frames, Array.getElem?_ofFn, dif_pos hn, hi]

/-- A program that stops in its second frame leaves both timers at one for good. -/
theorem runFrames_composes_unknown :
    ∃ m, (create ⟨0, 0⟩ .halt).loadRom [0x60, 0x02, 0xF0, 0x15, 0xF0, 0x18] = .ok m ∧
      (m.frames 3 2).machine.fault = some .unknownOpcode ∧
      (m.frames 3 2).machine.delayTimer = 1 ∧ (m.frames 3 2).machine.soundTimer = 1 ∧
      ∀ i, 1 ≤ i → m.frames 3 (i + 1) = m.frames 3 2 := by
  obtain ⟨-, -, -, -, hstop⟩ := runFrames_composes
    ((create ⟨0, 0⟩ .halt).loaded [0x60, 0x02, 0xF0, 0x15, 0xF0, 0x18]) 3
  have hf : (((create ⟨0, 0⟩ .halt).loaded [0x60, 0x02, 0xF0, 0x15, 0xF0, 0x18]).frames 3
      2).machine.fault = some .unknownOpcode := by decide +kernel
  obtain ⟨-, hsame⟩ := hstop 1 (hf ▸ Option.some_ne_none _)
  exact ⟨_, rfl, hf, by decide +kernel, by decide +kernel, fun i hi => (hsame i hi).1⟩

end Machine

/-! ### Frames as a host runs them -/

/-- A frame as a host runs it: the keys that it takes over first, one set after the
    other, and the number of instructions. -/
structure Frame where
  keys : List (Vector Bool 16)
  instructions : Int

/-- The events of a frame. -/
def Frame.events (f : Frame) : List Event :=
  f.keys.map .setKeys ++ Event.frame f.instructions

namespace Machine

variable {m : Machine}

/-- The machine after the instructions of a frame, before the frame ends. -/
def beforeEnd (m : Machine) (f : Frame) : Machine :=
  (f.keys.foldl setKeys m).after f.instructions.toNat

/-- The machine after a frame. -/
def afterFrame (m : Machine) (f : Frame) : Machine :=
  ((f.keys.foldl setKeys m).emulate f.instructions).machine

/-- The machine after a list of frames. -/
def afterFrames (m : Machine) (fs : List Frame) : Machine :=
  fs.foldl afterFrame m

theorem afterFrame_eq_endFrame (m : Machine) (f : Frame) :
    m.afterFrame f = (m.beforeEnd f).endFrame := rfl

theorem afterFrames_append (m : Machine) (fs gs : List Frame) :
    m.afterFrames (fs ++ gs) = (m.afterFrames fs).afterFrames gs :=
  List.foldl_append

theorem foldl_setKeys (m : Machine) (l : List (Vector Bool 16)) :
    ∃ keypad, l.foldl setKeys m = { m with keypad } := by
  induction l generalizing m with
  | nil => exact ⟨m.keypad, rfl⟩
  | cons keys l ih => exact ih (m.setKeys keys)

theorem history_map_setKeys (m : Machine) (l : List (Vector Bool 16)) :
    m.history (l.map .setKeys) = l.foldl setKeys m :=
  List.foldl_map

theorem afterFrame_eq_history (m : Machine) (f : Frame) : m.afterFrame f = m.history f.events := by
  rw [Frame.events, history_append, history_map_setKeys, ← machine_emulate]
  rfl

theorem afterFrames_eq_history (m : Machine) (fs : List Frame) :
    m.afterFrames fs = m.history (fs.flatMap Frame.events) := by
  induction fs generalizing m with
  | nil => rfl
  | cons f fs ih => rw [List.flatMap_cons, history_append, ← afterFrame_eq_history, ← ih]; rfl

/-- What is collected in a frame, if nothing is collected at a change of the keys or
    at the end of the frame, is collected at its steps. -/
theorem collect_frame {α : Type} {g : Machine → Event → List α}
    (hkeys : ∀ m keys, g m (.setKeys keys) = []) (hend : ∀ m, g m .endFrame = []) (m : Machine)
    (f : Frame) : m.collect g f.events =
      (f.keys.foldl setKeys m).collect g (.replicate f.instructions.toNat .step) := by
  have hend' (m : Machine) : m.collect g [.endFrame] = [] := by
    rw [collect, hend, collect, List.append_nil]
  rw [Frame.events, Event.frame, collect_append, collect_append, collect_map_setKeys hkeys,
    history_map_setKeys, hend', List.nil_append, List.append_nil]

/-- A machine that has stopped stays stopped, for the same cause. -/
theorem fault_history {f : Fault} (h : m.fault = some f) (es : List Event) :
    (m.history es).fault = some f := by
  refine history_induction (P := fun m => m.fault = some f) (fun m e h => ?_) h es
  cases e with
  | load rom =>
    obtain ⟨memory, hl⟩ := loaded_eq m rom
    rw [on, hl]
    exact h
  | step => rw [on, step_of_fault h, h]
  | endFrame => rw [on, fault_endFrame, h]
  | tick | setKeys keys => exact h

theorem fault_eq_none_of_afterFrames {fs : List Frame} (h : (m.afterFrames fs).fault = none) :
    m.fault = none := by
  cases hf : m.fault with
  | none => rfl
  | some f =>
    rw [afterFrames_eq_history, fault_history hf] at h
    cases h

end Machine

end Chip8
