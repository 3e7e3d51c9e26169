import Chip8.Proofs.Machine.Executed
import Chip8.Proofs.Machine.Footprint
import Chip8.Proofs.Machine.Frames

/-!
# The timers along a run

A frame raises the sound event exactly if it ends with the machine running and the
sound timer at one (`soundEvent_afterFrame_iff`).

So a sound that is heard uses up a timer that was started: what a frame lets be
heard, and what is still pending after it, was pending before it or has been
started in it (`sounds_add_pending_le`). Over a whole run this bounds the sounds by
the instructions that start the timer.

A run that sets no timer and does not stop counts both of them down, one a frame
(`timers_afterFrames`). All this together is `soundEvent_afterFrames`.
-/

namespace Chip8

/-- Whether an instruction sets one of the timers. -/
def Instruction.setsTimer : Instruction → Bool
  | .setDelay _ | .setSound _ => true
  | _ => false

namespace Machine

variable {m : Machine} {i : Instruction} {f : Frame} {fs : List Frame}

/-- Whether an instruction starts the sound timer: it sets it, and not to zero. -/
def startsSound : Machine × Instruction → Bool
  | (m, .setSound x) => m.v.get x ≠ 0
  | _ => false

/-- The number of sounds that are pending: one if the sound timer runs. -/
def pending (m : Machine) : Nat :=
  if 0 < m.soundTimer then 1 else 0

theorem pending_le_one (m : Machine) : m.pending ≤ 1 := by
  rw [pending]
  split <;> omega

/-! ### Steps -/

theorem delayTimer_step (h : m.executes? = some i) (hi : ∀ x, i ≠ .setDelay x) :
    m.step.machine.delayTimer = m.delayTimer := by
  obtain ⟨hf, hw, hstep⟩ := exec_of_executes? h
  rw [hstep]
  exact exec_sameOff hf hw .delayTimer fun h => (delayTimer_mem_writes_iff.1 h).elim hi

theorem soundTimer_step (h : m.executes? = some i) (hi : ∀ x, i ≠ .setSound x) :
    m.step.machine.soundTimer = m.soundTimer := by
  obtain ⟨hf, hw, hstep⟩ := exec_of_executes? h
  rw [hstep]
  exact exec_sameOff hf hw .soundTimer fun h => (soundTimer_mem_writes_iff.1 h).elim hi

/-- A step that sets no timer leaves both as they are. -/
theorem timers_step (h : ∀ p ∈ m.executedOn .step, p.2.setsTimer = false) :
    m.step.machine.delayTimer = m.delayTimer ∧ m.step.machine.soundTimer = m.soundTimer := by
  cases hi : m.executes? with
  | none =>
    obtain ⟨_, _, _, _, hstep⟩ := step_of_executes?_eq_none hi
    rw [hstep]
    exact ⟨rfl, rfl⟩
  | some i =>
    rw [executedOn, hi] at h
    have hset : i.setsTimer = false := h (m, i) (List.mem_singleton_self _)
    refine ⟨delayTimer_step hi ?_, soundTimer_step hi ?_⟩ <;> rintro x rfl <;> cases hset

/-- A step leaves no more pending than there was before it or than it has started. -/
theorem pending_step_le (m : Machine) :
    m.step.machine.pending ≤ m.pending + (m.executedOn .step).countP startsSound := by
  cases hi : m.executes? with
  | none =>
    obtain ⟨_, _, _, _, hstep⟩ := step_of_executes?_eq_none hi
    rw [hstep]
    exact Nat.le_add_right _ _
  | some i =>
    rw [executedOn, hi]
    by_cases hx : ∃ x, i = .setSound x
    · obtain ⟨x, rfl⟩ := hx
      have hstarts : (m.fetched.exec (.setSound x)).pending =
          [(m, Instruction.setSound x)].countP startsSound := by
        simp [pending, exec, fetched, startsSound, UInt8.pos_iff_ne_zero]
      rw [(exec_of_executes? hi).2.2, hstarts]
      exact Nat.le_add_left _ _
    · rw [not_exists] at hx
      rw [pending, soundTimer_step hi hx]
      exact Nat.le_add_right _ _

/-! ### Frames -/

/-- The executed instructions of a frame are those of its steps. -/
theorem executed_frame (m : Machine) (f : Frame) :
    m.executed f.events =
      (f.keys.foldl setKeys m).executed (.replicate f.instructions.toNat .step) := by
  rw [executed_eq_collect, executed_eq_collect]
  exact collect_frame (fun _ _ => rfl) (fun _ => rfl) m f

theorem pending_steps_le (m : Machine) (n : Nat) :
    (m.history (.replicate n .step)).pending ≤
      m.pending + (m.executed (.replicate n .step)).countP startsSound := by
  induction n generalizing m with
  | zero => exact Nat.le_add_right _ _
  | succ n ih =>
    have hstep := pending_step_le m
    have hrest := ih m.step.machine
    rw [List.replicate_succ, executed, List.countP_append]
    exact hrest.trans (by simp only [on]; omega)

theorem timers_steps {n : Nat} (h : ∀ p ∈ m.executed (.replicate n .step), p.2.setsTimer = false) :
    (m.history (.replicate n .step)).delayTimer = m.delayTimer ∧
      (m.history (.replicate n .step)).soundTimer = m.soundTimer := by
  induction n generalizing m with
  | zero => exact ⟨rfl, rfl⟩
  | succ n ih =>
    rw [List.replicate_succ, executed, List.forall_mem_append] at h
    obtain ⟨hd, hs⟩ := timers_step h.1
    obtain ⟨hd', hs'⟩ := ih h.2
    exact ⟨hd'.trans hd, hs'.trans hs⟩

theorem soundEvent_endFrame_iff :
    m.endFrame.soundEvent = true ↔ m.fault = none ∧ m.soundTimer = 1 := by
  cases hf : m.fault with
  | some f =>
    have hm : m.fault ≠ none := hf ▸ Option.some_ne_none f
    simp [soundEvent_endFrame_of_fault hm]
  | none => simp [endFrame_of_fault_eq_none hf, tick]

/-- The end of a frame lets a pending sound be heard or leaves it pending. -/
theorem sound_add_pending_endFrame_le (m : Machine) :
    (if m.endFrame.soundEvent then 1 else 0) + m.endFrame.pending ≤ m.pending := by
  cases hf : m.fault with
  | some f =>
    have hm : m.fault ≠ none := hf ▸ Option.some_ne_none f
    rw [soundEvent_endFrame_of_fault hm, endFrame_of_halted (halted_iff.2 hm)]
    exact (Nat.zero_add _).le
  | none =>
    rw [endFrame_of_fault_eq_none hf]
    by_cases h0 : m.soundTimer = 0
    · simp [tick, pending, h0]
    · have hm : m.pending = 1 := if_pos (UInt8.pos_iff_ne_zero.2 h0)
      rw [hm]
      by_cases h1 : m.soundTimer = 1
      · simp [tick, pending, h1]
      · have ht : m.tick.soundEvent = false := decide_eq_false h1
        rw [ht, if_neg Bool.false_ne_true, Nat.zero_add]
        exact m.tick.pending_le_one

theorem beforeEnd_eq_history (m : Machine) (f : Frame) :
    m.beforeEnd f = (f.keys.foldl setKeys m).history (.replicate f.instructions.toNat .step) :=
  (history_replicate_step _ _).symm

/-- A frame raises the sound event exactly if the machine runs at its end, with the
    sound timer at one. -/
theorem soundEvent_afterFrame_iff :
    (m.afterFrame f).soundEvent = true ↔
      (m.beforeEnd f).fault = none ∧ (m.beforeEnd f).soundTimer = 1 :=
  soundEvent_endFrame_iff

/-- What a frame lets be heard, and what is still pending after it, was pending
    before it or has been started in it. -/
theorem sounds_add_pending_le (m : Machine) (f : Frame) :
    (if (m.afterFrame f).soundEvent then 1 else 0) + (m.afterFrame f).pending ≤
      m.pending + (m.executed f.events).countP startsSound := by
  have hsteps := pending_steps_le (f.keys.foldl setKeys m) f.instructions.toNat
  obtain ⟨keypad, hkeys⟩ := foldl_setKeys m f.keys
  have hpending : (f.keys.foldl setKeys m).pending = m.pending := by rw [hkeys]; rfl
  rw [← beforeEnd_eq_history, hpending, ← executed_frame] at hsteps
  exact (sound_add_pending_endFrame_le (m.beforeEnd f)).trans hsteps

/-- A timer moves on by one and stops at zero. -/
theorem toNat_countDown (t : UInt8) : (if t = 0 then 0 else t - 1).toNat = t.toNat - 1 := by
  split
  · next h => rw [h]; rfl
  · next h =>
    have hpos : 0 < t.toNat := Nat.pos_of_ne_zero fun h0 => h (UInt8.toNat_inj.1 h0)
    exact UInt8.toNat_sub_of_le t 1 (UInt8.le_iff_toNat_le.2 hpos)

/-- A frame that sets no timer and does not stop moves both on by one. -/
theorem timers_afterFrame (h : ∀ p ∈ m.executed f.events, p.2.setsTimer = false)
    (hf : (m.afterFrame f).fault = none) :
    (m.afterFrame f).delayTimer.toNat = m.delayTimer.toNat - 1 ∧
      (m.afterFrame f).soundTimer.toNat = m.soundTimer.toNat - 1 ∧
      ((m.afterFrame f).soundEvent = true ↔ m.soundTimer.toNat = 1) := by
  rw [executed_frame] at h
  obtain ⟨hd, hs⟩ := timers_steps h
  obtain ⟨keypad, hkeys⟩ := foldl_setKeys m f.keys
  rw [← beforeEnd_eq_history, hkeys] at hd hs
  have hf' : (m.beforeEnd f).fault = none := by
    rwa [afterFrame_eq_endFrame, fault_endFrame] at hf
  refine ⟨?_, ?_, ?_⟩
  · rw [afterFrame_eq_endFrame, endFrame_of_fault_eq_none hf', tick, hd, toNat_countDown]
  · rw [afterFrame_eq_endFrame, endFrame_of_fault_eq_none hf', tick, hs, toNat_countDown]
  · rw [soundEvent_afterFrame_iff, and_iff_right hf', hs, ← UInt8.toNat_inj]
    rfl

/-! ### Runs -/

/-- A run that sets no timer and does not stop counts both down, one a frame, and the
    sound event is raised when the sound timer gets to zero, and not again. -/
theorem timers_afterFrames
    (h : ∀ p ∈ m.executed (fs.flatMap Frame.events), p.2.setsTimer = false)
    (hf : (m.afterFrames fs).fault = none) {n : Nat} (hn : n ≤ fs.length) :
    (m.afterFrames (fs.take n)).delayTimer.toNat = m.delayTimer.toNat - n ∧
      (m.afterFrames (fs.take n)).soundTimer.toNat = m.soundTimer.toNat - n ∧
      (1 ≤ n → ((m.afterFrames (fs.take n)).soundEvent = true ↔ n = m.soundTimer.toNat)) := by
  induction fs generalizing m n with
  | nil =>
    obtain rfl : n = 0 := Nat.le_zero.1 hn
    exact ⟨rfl, rfl, nofun⟩
  | cons f fs ih =>
    cases n with
    | zero => exact ⟨rfl, rfl, nofun⟩
    | succ n =>
      rw [List.flatMap_cons, executed_append, ← afterFrame_eq_history,
        List.forall_mem_append] at h
      have hfirst : (m.afterFrame f).fault = none := fault_eq_none_of_afterFrames hf
      obtain ⟨hd, hs, he⟩ := timers_afterFrame h.1 hfirst
      obtain ⟨hd', hs', he'⟩ := ih h.2 hf (Nat.le_of_succ_le_succ hn)
      have htake : m.afterFrames ((f :: fs).take (n + 1)) =
          (m.afterFrame f).afterFrames (fs.take n) := rfl
      rw [htake]
      refine ⟨by omega, by omega, fun _ => ?_⟩
      cases n with
      | zero => exact he.trans eq_comm
      | succ n =>
        rw [he' n.succ_pos, hs]
        omega

/-- The number of frames of a run that raise the sound event. -/
def sounds (m : Machine) (fs : List Frame) : Nat :=
  (List.range fs.length).countP fun n => (m.afterFrames (fs.take (n + 1))).soundEvent

theorem sounds_cons (m : Machine) (f : Frame) (fs : List Frame) :
    m.sounds (f :: fs) =
      (m.afterFrame f).sounds fs + if (m.afterFrame f).soundEvent then 1 else 0 := by
  rw [sounds, List.length_cons, List.range_succ_eq_map, List.countP_cons, List.countP_map]
  rfl

theorem sounds_le (m : Machine) (fs : List Frame) :
    m.sounds fs + (m.afterFrames fs).pending ≤
      (m.executed (fs.flatMap Frame.events)).countP startsSound + m.pending := by
  induction fs generalizing m with
  | nil => exact (Nat.zero_add _).le.trans (Nat.zero_add _).ge
  | cons f fs ih =>
    have hfirst := sounds_add_pending_le m f
    have hrest := ih (m.afterFrame f)
    rw [sounds_cons, List.flatMap_cons, executed_append, List.countP_append,
      ← afterFrame_eq_history]
    rw [show m.afterFrames (f :: fs) = (m.afterFrame f).afterFrames fs from rfl]
    omega

/-- Along a run of frames the sound event is raised by the frames that end with the
    machine running and the sound timer at one, and by no others. So it is raised at
    most once for every instruction that starts the sound timer, and once more if the
    timer runs from the beginning. A run that sets no timer and does not stop counts
    both down, one a frame, and raises the event when the sound timer gets to zero,
    and not again. -/
theorem soundEvent_afterFrames (m : Machine) (fs : List Frame) :
    (∀ n (hn : n < fs.length), (m.afterFrames (fs.take (n + 1))).soundEvent = true ↔
        ((m.afterFrames (fs.take n)).beforeEnd fs[n]).fault = none ∧
          ((m.afterFrames (fs.take n)).beforeEnd fs[n]).soundTimer = 1) ∧
      m.sounds fs ≤ (m.executed (fs.flatMap Frame.events)).countP startsSound +
        (if 0 < m.soundTimer then 1 else 0) ∧
      ((∀ p ∈ m.executed (fs.flatMap Frame.events), p.2.setsTimer = false) →
        (m.afterFrames fs).fault = none → ∀ n ≤ fs.length,
          (m.afterFrames (fs.take n)).delayTimer.toNat = m.delayTimer.toNat - n ∧
            (m.afterFrames (fs.take n)).soundTimer.toNat = m.soundTimer.toNat - n ∧
            (1 ≤ n →
              ((m.afterFrames (fs.take n)).soundEvent = true ↔ n = m.soundTimer.toNat))) := by
  refine ⟨fun n hn => ?_, ?_, fun h hf n => timers_afterFrames h hf⟩
  · rw [List.take_succ_eq_append_getElem hn, afterFrames_append]
    exact soundEvent_afterFrame_iff
  · exact (Nat.le_add_right _ _).trans (sounds_le m fs)

/-- A machine in a loop that touches no timer, while both run. -/
def looping : Machine :=
  { (create ⟨0, 0⟩ .halt).loaded [0x12, 0x00] with delayTimer := 1, soundTimer := 2 }

/-- Three frames: of three instructions, of one with every key down, and of none. -/
def threeFrames : List Frame :=
  [⟨[], 3⟩, ⟨[.replicate 16 true], 1⟩, ⟨[], -1⟩]

theorem soundEvent_afterFrames_looping :
    (∀ p ∈ looping.executed (threeFrames.flatMap Frame.events), p.2.setsTimer = false) ∧
      (looping.afterFrames threeFrames).fault = none ∧
      (looping.afterFrames (threeFrames.take 2)).soundEvent = true ∧
      (looping.afterFrames (threeFrames.take 3)).soundEvent = false ∧
      (looping.afterFrames (threeFrames.take 3)).soundTimer.toNat = 0 := by
  obtain ⟨-, -, hcount⟩ := soundEvent_afterFrames looping threeFrames
  have hset : ∀ p ∈ looping.executed (threeFrames.flatMap Frame.events),
      p.2.setsTimer = false := by decide +kernel
  have hf : (looping.afterFrames threeFrames).fault = none := by decide +kernel
  have hsound : looping.soundTimer.toNat = 2 := by decide +kernel
  obtain ⟨-, -, htwo⟩ := hcount hset hf 2 (by decide)
  obtain ⟨-, hend, hthree⟩ := hcount hset hf 3 (by decide)
  rw [hsound] at htwo hend hthree
  refine ⟨hset, hf, (htwo (by decide)).2 rfl, ?_, hend⟩
  exact Bool.eq_false_iff.2 fun h => absurd ((hthree (by decide)).1 h) (by decide)

end Machine

end Chip8
