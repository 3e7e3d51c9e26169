import Chip8.Proofs.Machine.Timers

/-!
# The sound is not read

A program can start the sound timer, but it cannot look at it, nor at the sound event.
Two machines that are the same but for these two (`SameButSound`) therefore stay so
whatever is done to both of them: they execute the same instructions
(`history_sameButSound`), print the same warnings and refuse the same programs
(`responses_sameButSound`).

Their sound timers differ only as long as neither has been set: an instruction that
sets them sets both to the same, and from then on they move on together
(`soundTimer_on_eq`). All this together is `sameButSound_run`.
-/

namespace Chip8

/-- What an action lets be seen: the warnings that it prints, and why it was refused, if
    it was. -/
structure Response where
  printed : List Log.Entry
  refusal : Option RomTooLarge
deriving DecidableEq

namespace Machine

variable {m m' : Machine} {e : Event}

/-- `m'` is the same as `m` but for the sound timer and the sound event. -/
def SameButSound (m m' : Machine) : Prop :=
  m' = { m with soundTimer := m'.soundTimer, soundEvent := m'.soundEvent }

/-- The machine with another sound timer and another sound event. -/
def withSound (m : Machine) (t : UInt8) (b : Bool) : Machine :=
  { m with soundTimer := t, soundEvent := b }

theorem sameButSound_withSound (m : Machine) (t : UInt8) (b : Bool) :
    m.SameButSound (m.withSound t b) := rfl

theorem SameButSound.exists_eq (h : m.SameButSound m') : ∃ t b, m' = m.withSound t b :=
  ⟨m'.soundTimer, m'.soundEvent, h⟩

/-! ### One instruction -/

variable {t : UInt8} {b : Bool}

theorem skipIf_withSound (c : Bool) :
    (m.withSound t b).skipIf c = (m.skipIf c).withSound t b := by
  cases c <;> rfl

theorem execAlu_withSound (op : Alu) (x y : Fin 16) :
    (m.withSound t b).execAlu op x y = (m.execAlu op x y).withSound t b := by
  cases op <;> rfl

variable (m t b) in
/-- An instruction does not look at the sound timer or at the sound event. It may set
    the timer. -/
theorem exec_withSound (i : Instruction) :
    ∃ t', (m.withSound t b).exec i = (m.exec i).withSound t' b := by
  cases i with
  | setSound x => exact ⟨m.v.get x, rfl⟩
  | ret =>
    refine ⟨t, ?_⟩
    simp only [exec, withSound]
    cases m.stack.pop? <;> rfl
  | call a =>
    refine ⟨t, ?_⟩
    simp only [exec, withSound]
    cases m.stack.push? m.pc.toNat <;> rfl
  | waitKey x =>
    have h : (m.withSound t b).highestKey? = m.highestKey? := rfl
    refine ⟨t, ?_⟩
    simp only [exec, h]
    cases m.highestKey? <;> rfl
  | skipEq x k | skipNe x k | skipEqReg x y | skipNeReg x y | skipKey x | skipNoKey x =>
    exact ⟨t, skipIf_withSound _⟩
  | alu op x y => exact ⟨t, execAlu_withSound op x y⟩
  | draw x y n | decimal x | store x | restore x =>
    -- the check of the range is the same on both sides
    refine ⟨t, ?_⟩
    simp only [exec, apply_ite (withSound · t b)]
    rfl
  | _ => exact ⟨t, rfl⟩

variable (m t b) in
theorem execute_withSound (w : UInt16) :
    ∃ t', (m.withSound t b).execute w =
      ⟨(m.execute w).machine.withSound t' b, (m.execute w).reports⟩ := by
  cases hi : Instruction.ofWord? w with
  | some i =>
    obtain ⟨t', he⟩ := exec_withSound m t b i
    refine ⟨t', ?_⟩
    simp only [execute, hi, he]
    rfl
  | none =>
    refine ⟨t, ?_⟩
    have hp : (m.withSound t b).policy = m.policy := rfl
    simp only [execute, hi, executeUnknown, hp]
    cases m.policy <;> rfl

/-! ### One step -/

variable (m t b) in
/-- A step does not look at the sound timer or at the sound event. -/
theorem step_withSound :
    ∃ t', (m.withSound t b).step = ⟨m.step.machine.withSound t' b, m.step.reports⟩ := by
  cases hf : m.fault with
  | some f =>
    have hm : m.halted = true := by rw [halted, hf, Option.isSome_some]
    have hm' : (m.withSound t b).halted = true := hm
    exact ⟨t, by rw [step_of_halted hm, step_of_halted hm']; rfl⟩
  | none =>
    have hf' : (m.withSound t b).fault = none := hf
    by_cases hr : m.inReach
    · have hr' : (m.withSound t b).inReach := hr
      rw [step_of_inReach hf hr, step_of_inReach hf' hr']
      exact execute_withSound m.fetched t b m.word
    · have hr' : ¬ (m.withSound t b).inReach := hr
      exact ⟨t, by rw [step_past_end hf hr, step_past_end hf' hr']; rfl⟩

theorem executes?_sameButSound (h : m.SameButSound m') : m'.executes? = m.executes? := by
  obtain ⟨t, b, rfl⟩ := h.exists_eq
  obtain ⟨t', hstep⟩ := step_withSound m t b
  rw [executes?, executes?, hstep]
  rfl

/-- A step that does not set the sound timer leaves it alone. -/
theorem soundTimer_step_of_ne (hx : ∀ x, m.executes? ≠ some (.setSound x)) :
    m.step.machine.soundTimer = m.soundTimer := by
  cases hi : m.executes? with
  | none =>
    obtain ⟨_, _, _, _, hstep⟩ := step_of_executes?_eq_none hi
    rw [hstep]
  | some i =>
    refine soundTimer_step hi ?_
    rintro x rfl
    exact hx x hi

/-- A step keeps the sound timers of the two machines equal, and makes them equal if it
    sets them. -/
theorem soundTimer_step_eq (h : m.SameButSound m')
    (ht : m'.soundTimer = m.soundTimer ∨ ∃ x, m.executes? = some (.setSound x)) :
    m'.step.machine.soundTimer = m.step.machine.soundTimer := by
  have hsame := executes?_sameButSound h
  by_cases hx : ∃ x, m.executes? = some (.setSound x)
  · obtain ⟨x, hi⟩ := hx
    obtain ⟨-, -, hstep⟩ := exec_of_executes? hi
    obtain ⟨-, -, hstep'⟩ := exec_of_executes? (hsame.trans hi)
    obtain ⟨t, b, rfl⟩ := h.exists_eq
    rw [hstep, hstep']
    rfl
  · have hne := not_exists.1 hx
    have hne' : ∀ x, m'.executes? ≠ some (.setSound x) := hsame ▸ hne
    rw [soundTimer_step_of_ne hne, soundTimer_step_of_ne hne']
    exact ht.resolve_right hx

/-! ### One event -/

theorem loadRom_withSound (rom : List UInt8) :
    (m.withSound t b).loadRom rom = (m.loadRom rom).map (withSound · t b) := by
  rw [loadRom, loadRom]
  split <;> rfl

theorem loaded_withSound (rom : List UInt8) :
    (m.withSound t b).loaded rom = (m.loaded rom).withSound t b := by
  rw [loaded, loaded, loadRom_withSound]
  cases m.loadRom rom <;> rfl

theorem endFrame_sameButSound (h : m.SameButSound m') : m.endFrame.SameButSound m'.endFrame := by
  obtain ⟨t, b, rfl⟩ := h.exists_eq
  have hm : (m.withSound t b).halted = m.halted := rfl
  rw [endFrame, endFrame, hm]
  split <;> rfl

theorem on_sameButSound (h : m.SameButSound m') (e : Event) :
    (m.on e).SameButSound (m'.on e) := by
  cases e with
  | load rom =>
    obtain ⟨t, b, rfl⟩ := h.exists_eq
    rw [on, on, loaded_withSound]
    rfl
  | step =>
    obtain ⟨t, b, rfl⟩ := h.exists_eq
    obtain ⟨t', hstep⟩ := step_withSound m t b
    rw [on, on, hstep]
    rfl
  | endFrame => exact endFrame_sameButSound h
  | tick | setKeys keys =>
    obtain ⟨t, b, rfl⟩ := h.exists_eq
    rfl

theorem executedOn_sameButSound (h : m.SameButSound m') (e : Event) :
    (m'.executedOn e).map Prod.snd = (m.executedOn e).map Prod.snd := by
  cases e with
  | step =>
    rw [executedOn, executedOn, executes?_sameButSound h, List.map_map, List.map_map]
    rfl
  | _ => rfl

/-- Whether one of the instructions executed sets the sound timer. -/
def SetsSound (l : List (Machine × Instruction)) : Prop :=
  ∃ p ∈ l, ∃ x, p.2 = .setSound x

theorem not_setsSound_nil : ¬ SetsSound [] := by
  rintro ⟨p, hp, -⟩
  cases hp

theorem setsSound_append {l l' : List (Machine × Instruction)} :
    SetsSound (l ++ l') ↔ SetsSound l ∨ SetsSound l' := by
  simp only [SetsSound, List.mem_append, or_and_right, exists_or]

theorem soundTimer_endFrame_eq (h : m.SameButSound m') (ht : m'.soundTimer = m.soundTimer) :
    m'.endFrame.soundTimer = m.endFrame.soundTimer := by
  obtain ⟨t, b, rfl⟩ := h.exists_eq
  obtain rfl : t = m.soundTimer := ht
  have hm : (m.withSound m.soundTimer b).halted = m.halted := rfl
  rw [endFrame, endFrame, hm]
  split <;> rfl

/-- An event keeps the sound timers of the two machines equal, and makes them equal if
    it sets them. -/
theorem soundTimer_on_eq (h : m.SameButSound m')
    (ht : m'.soundTimer = m.soundTimer ∨ SetsSound (m.executedOn e)) :
    (m'.on e).soundTimer = (m.on e).soundTimer := by
  cases e with
  | step =>
    refine soundTimer_step_eq h (ht.imp_right ?_)
    rintro ⟨⟨_, i⟩, hp, x, rfl⟩
    obtain ⟨i, hi, he⟩ := List.mem_map.1 hp
    obtain ⟨-, rfl⟩ := Prod.mk.inj he
    exact ⟨x, Option.mem_toList.1 hi⟩
  | load rom =>
    have ht : m'.soundTimer = m.soundTimer := ht.resolve_right not_setsSound_nil
    obtain ⟨memory, hl⟩ := loaded_eq m rom
    obtain ⟨memory', hl'⟩ := loaded_eq m' rom
    rw [on, on, hl, hl']
    exact ht
  | endFrame => exact soundTimer_endFrame_eq h (ht.resolve_right not_setsSound_nil)
  | tick =>
    have ht : m'.soundTimer = m.soundTimer := ht.resolve_right not_setsSound_nil
    rw [on, on, tick, tick, ht]
  | setKeys keys => exact ht.resolve_right not_setsSound_nil

/-! ### Histories -/

/-- Along a history the two machines stay the same but for the sound and execute the
    same instructions. Their sound timers are equal at the end if they were so at the
    beginning or have been set. -/
theorem history_sameButSound (h : m.SameButSound m') (es : List Event) :
    (m.history es).SameButSound (m'.history es) ∧
      (m'.executed es).map Prod.snd = (m.executed es).map Prod.snd ∧
      (m'.soundTimer = m.soundTimer ∨ SetsSound (m.executed es) →
        (m'.history es).soundTimer = (m.history es).soundTimer) := by
  induction es generalizing m m' with
  | nil => exact ⟨h, rfl, fun ht => ht.resolve_right not_setsSound_nil⟩
  | cons e es ih =>
    obtain ⟨hsame, hexecuted, htimer⟩ := ih (on_sameButSound h e)
    refine ⟨hsame, ?_, fun ht => htimer ?_⟩
    · rw [executed, executed, List.map_append, List.map_append, hexecuted,
        executedOn_sameButSound h e]
    · rw [executed, setsSound_append, ← or_assoc] at ht
      exact ht.imp_left (soundTimer_on_eq h)

end Machine

/-! ### Responses -/

/-- Two machines have come to the same but for the sound, and have reported the same. -/
def Outcome.SameButSound (o o' : Outcome) : Prop :=
  o.machine.SameButSound o'.machine ∧ o'.reports = o.reports

namespace Outcome.SameButSound

variable {o o' : Outcome}

theorem andThen (h : o.SameButSound o') {f : Machine → Outcome}
    (hf : ∀ {m m' : Machine}, m.SameButSound m' → (f m).SameButSound (f m')) :
    (o.andThen f).SameButSound (o'.andThen f) := by
  obtain ⟨hmachine, hreports⟩ := hf h.1
  exact ⟨hmachine, by rw [reports_andThen, reports_andThen, h.2, hreports]⟩

theorem printed_eq (h : o.SameButSound o') : o'.printed = o.printed := by
  rw [printed, printed, h.2]

end Outcome.SameButSound

namespace Machine

variable {m m' : Machine} {k : Int}

theorem silent_sameButSound (h : m.SameButSound m') :
    (Outcome.silent m).SameButSound (.silent m') :=
  ⟨h, rfl⟩

theorem step_sameButSound (h : m.SameButSound m') : m.step.SameButSound m'.step := by
  obtain ⟨t, b, rfl⟩ := h.exists_eq
  obtain ⟨t', hstep⟩ := step_withSound m t b
  rw [hstep]
  exact ⟨rfl, rfl⟩

theorem steps_sameButSound {o o' : Outcome} (h : o.SameButSound o') (n : Nat) :
    (o.steps n).SameButSound (o'.steps n) := by
  induction n generalizing o o' with
  | zero => exact h
  | succ n ih => exact ih (h.andThen step_sameButSound)

theorem emulate_sameButSound (h : m.SameButSound m') :
    (m.emulate k).SameButSound (m'.emulate k) :=
  (steps_sameButSound (silent_sameButSound h) k.toNat).andThen
    fun h => silent_sameButSound (endFrame_sameButSound h)

theorem frames_sameButSound (h : m.SameButSound m') (n : Nat) :
    (m.frames k n).SameButSound (m'.frames k n) := by
  induction n with
  | zero => exact silent_sameButSound h
  | succ n ih => exact ih.andThen emulate_sameButSound

theorem fst_runFrames_eq_frames (m : Machine) (n : Nat) (k : Int) :
    (m.runFrames n k).1 = m.frames k n ∧ (m.runFramesReporting n k).1.1 = m.frames k n := by
  have hframes : (m.runFrames n k).1 = m.frames k n := by rw [runFrames_eq_frames]
  exact ⟨hframes, (scan_decorate (frame k) n _ n _ _).1.trans hframes⟩

/-- What an action lets be seen. -/
def respond (m : Machine) : Action → Response
  | .load rom =>
    match m.loadRom rom with
    | .ok _ => ⟨[], none⟩
    | .error e => ⟨[], some e⟩
  | .step => ⟨m.step.printed, none⟩
  | .emulate k => ⟨(m.emulate k).printed, none⟩
  | .runFrames n k false => ⟨(m.runFrames n k).1.printed, none⟩
  | .runFrames n k true => ⟨(m.runFramesReporting n k).1.1.printed, none⟩
  | .tick | .setKeys _ => ⟨[], none⟩

/-- What a list of actions lets be seen, one by one. -/
def responses (m : Machine) : List Action → List Response
  | [] => []
  | a :: as => m.respond a :: (m.act a).responses as

theorem respond_sameButSound (h : m.SameButSound m') (a : Action) :
    m'.respond a = m.respond a := by
  cases a with
  | load rom =>
    obtain ⟨t, b, rfl⟩ := h.exists_eq
    rw [respond, respond, loadRom_withSound]
    cases m.loadRom rom <;> rfl
  | step => rw [respond, respond, (step_sameButSound h).printed_eq]
  | emulate k => rw [respond, respond, (emulate_sameButSound h).printed_eq]
  | runFrames n k reporting =>
    have hprinted := (frames_sameButSound (k := k) h n).printed_eq
    cases reporting with
    | false =>
      rw [respond, respond, (m.fst_runFrames_eq_frames n k).1, (m'.fst_runFrames_eq_frames n k).1,
        hprinted]
    | true =>
      rw [respond, respond, (m.fst_runFrames_eq_frames n k).2, (m'.fst_runFrames_eq_frames n k).2,
        hprinted]
  | tick | setKeys keys => rfl

theorem act_sameButSound (h : m.SameButSound m') (a : Action) :
    (m.act a).SameButSound (m'.act a) := by
  rw [act_eq_history, act_eq_history]
  exact (history_sameButSound h a.events).1

theorem responses_sameButSound (h : m.SameButSound m') (as : List Action) :
    m'.responses as = m.responses as := by
  induction as generalizing m m' with
  | nil => rfl
  | cons a as ih => rw [responses, responses, respond_sameButSound h, ih (act_sameButSound h a)]

/-! ### Runs -/

/-- Two machines that are the same but for the sound timer and the sound event stay so
    whatever is done to both, print the same warnings, refuse the same programs and
    execute the same instructions. Once one of these has set the sound timer, the timers
    of the two are equal for good. -/
theorem sameButSound_run (h : m.SameButSound m') (as : List Action) :
    (m.run as).SameButSound (m'.run as) ∧
      m'.responses as = m.responses as ∧
      (m'.executed (as.flatMap Action.events)).map Prod.snd =
        (m.executed (as.flatMap Action.events)).map Prod.snd ∧
      ((∃ p ∈ m.executed (as.flatMap Action.events), ∃ x, p.2 = .setSound x) →
        ∀ more, (m'.run (as ++ more)).soundTimer = (m.run (as ++ more)).soundTimer) := by
  obtain ⟨hsame, hexecuted, -⟩ := history_sameButSound h (as.flatMap Action.events)
  rw [← run_eq_history, ← run_eq_history] at hsame
  refine ⟨hsame, responses_sameButSound h as, hexecuted, fun hset more => ?_⟩
  obtain ⟨-, -, htimer⟩ := history_sameButSound h ((as ++ more).flatMap Action.events)
  rw [run_eq_history, run_eq_history]
  refine htimer (.inr ?_)
  rw [List.flatMap_append, executed_append, setsSound_append]
  exact .inl hset

/-- A machine that skips unknown words, with a program that starts the sound and then
    has one. -/
def sounding : Machine :=
  (create ⟨0, 0⟩ .skip).loaded [0x60, 0x05, 0xF0, 0x18, 0x01, 0x23]

/-- A frame that comes to the unknown word, and a program that does not fit. -/
def frameAndLoad : List Action :=
  [.emulate 3, .load (.replicate 3584 0)]

theorem sameButSound_run_sounding :
    sounding.SameButSound (sounding.withSound 7 true) ∧
      (∃ p ∈ sounding.executed (frameAndLoad.flatMap Action.events), ∃ x, p.2 = .setSound x) ∧
      (sounding.withSound 7 true).responses frameAndLoad =
        [⟨[Log.warning "Unknown opcode 0x0123 at 0x204"], none⟩, ⟨[], some ⟨3584, 3584⟩⟩] ∧
      ∀ more, ((sounding.withSound 7 true).run (frameAndLoad ++ more)).soundTimer =
        (sounding.run (frameAndLoad ++ more)).soundTimer := by
  obtain ⟨-, hresponses, -, htimer⟩ :=
    sameButSound_run (sameButSound_withSound sounding 7 true) frameAndLoad
  have hexecuted : (sounding.executed (frameAndLoad.flatMap Action.events)).map Prod.snd =
      [.load 0 5, .setSound 0] := by decide +kernel
  have hmem : Instruction.setSound 0 ∈
      (sounding.executed (frameAndLoad.flatMap Action.events)).map Prod.snd := by
    rw [hexecuted]
    exact List.mem_cons_of_mem _ (List.mem_singleton_self _)
  obtain ⟨p, hp, he⟩ := List.mem_map.1 hmem
  have hset : ∃ p ∈ sounding.executed (frameAndLoad.flatMap Action.events),
      ∃ x, p.2 = .setSound x := ⟨p, hp, 0, he⟩
  refine ⟨sameButSound_withSound _ _ _, hset, ?_, htimer hset⟩
  rw [hresponses]
  decide +kernel

end Machine

end Chip8
