import Chip8.Machine.Frame
import Chip8.Machine.Rom

/-!
# Runs of a machine

A host loads programs, sets keys, ticks the timers, and runs single steps,
frames and series of frames, in any order: a run of a machine is a list of such
`Action`s. All of them are made of five kinds of elementary `Event`s, so a
property that every event keeps holds all along a run (`run_induction`).
-/

namespace Chip8

/-- What a host does to a machine. -/
inductive Action where
  /-- Load a program, if it fits. -/
  | load (rom : List UInt8)
  /-- Run one instruction. -/
  | step
  /-- Run a frame of `k` instructions. -/
  | emulate (k : Int)
  /-- Run `n` frames of `k` instructions, and report to a progress bar or not. -/
  | runFrames (n : Nat) (k : Int) (reporting : Bool)
  /-- Move the timers on. -/
  | tick
  /-- Take over which keys are down. -/
  | setKeys (keys : Vector Bool 16)

/-- What happens to a machine, one at a time. -/
inductive Event where
  /-- A program is loaded, if it fits. -/
  | load (rom : List UInt8)
  /-- An instruction is run. -/
  | step
  /-- A frame ends. -/
  | endFrame
  /-- The timers move on. -/
  | tick
  /-- The keys change. -/
  | setKeys (keys : Vector Bool 16)

/-- The events of a frame of `k` instructions. -/
def Event.frame (k : Int) : List Event :=
  .replicate k.toNat .step ++ [.endFrame]

/-- The events of an action. -/
def Action.events : Action → List Event
  | load rom => [.load rom]
  | step => [.step]
  | emulate k => Event.frame k
  | runFrames n k _ => (List.replicate n (Event.frame k)).flatten
  | tick => [.tick]
  | setKeys keys => [.setKeys keys]

/-! ### Steps -/

namespace Outcome

theorem steps_add (o : Outcome) (n k : Nat) : o.steps (n + k) = (o.steps n).steps k := by
  induction n generalizing o with
  | zero => rw [Nat.zero_add, steps]
  | succ n ih => rw [Nat.succ_add, steps, steps, ih]

theorem steps_succ (o : Outcome) (n : Nat) : o.steps (n + 1) = (o.steps n).andThen Machine.step :=
  o.steps_add n 1

theorem silent_andThen (m : Machine) (f : Machine → Outcome) : (silent m).andThen f = f m := by
  rw [andThen, reports_silent, Array.empty_append, machine_silent]

end Outcome

namespace Machine

/-- The machine after `n` steps. -/
def after (m : Machine) (n : Nat) : Machine :=
  ((Outcome.silent m).steps n).machine

theorem after_succ (m : Machine) (n : Nat) : m.after (n + 1) = (m.after n).step.machine := by
  rw [after, Outcome.steps_succ]
  rfl

end Machine

/-! ### Actions and events -/

namespace Machine

/-- The machine after loading a program; one that does not fit changes nothing. -/
def loaded (m : Machine) (rom : List UInt8) : Machine :=
  match m.loadRom rom with
  | .ok m => m
  | .error _ => m

/-- The machine after an action. -/
def act (m : Machine) : Action → Machine
  | .load rom => m.loaded rom
  | .step => m.step.machine
  | .emulate k => (m.emulate k).machine
  | .runFrames n k false => (m.runFrames n k).1.machine
  | .runFrames n k true => (m.runFramesReporting n k).1.1.machine
  | .tick => m.tick
  | .setKeys keys => m.setKeys keys

/-- The machine after a list of actions. -/
def run (m : Machine) (as : List Action) : Machine :=
  as.foldl act m

/-- Some run from reset leads to the machine. -/
def Reachable (m : Machine) : Prop :=
  ∃ rng policy as, (create rng policy).run as = m

/-- The machine after an event. -/
def on (m : Machine) : Event → Machine
  | .load rom => m.loaded rom
  | .step => m.step.machine
  | .endFrame => m.endFrame
  | .tick => m.tick
  | .setKeys keys => m.setKeys keys

/-- The machine after a list of events. -/
def history (m : Machine) (es : List Event) : Machine :=
  es.foldl on m

theorem history_append (m : Machine) (es fs : List Event) :
    m.history (es ++ fs) = (m.history es).history fs :=
  List.foldl_append

/-! ### Actions as events -/

theorem machine_steps (o : Outcome) (n : Nat) :
    (o.steps n).machine = o.machine.history (.replicate n .step) := by
  induction n generalizing o with
  | zero => rfl
  | succ n ih => rw [Outcome.steps, ih]; rfl

theorem history_replicate_step (m : Machine) (n : Nat) :
    m.history (.replicate n .step) = m.after n :=
  (machine_steps (.silent m) n).symm

theorem machine_emulate (m : Machine) (k : Int) :
    (m.emulate k).machine = m.history (Event.frame k) := by
  rw [emulate, Outcome.machine_andThen, machine_steps, Event.frame, history_append]
  rfl

/-- Reporting changes neither the state nor the outputs of a scan. -/
theorem scan_decorate {σ β : Type} (body : Body σ β) (n r j : Nat) (s : σ) (t : Progress.Tracker) :
    ((Progress.decorate n r body).scan j (s, t)).1.1 = (body.scan j s).1 ∧
      ((Progress.decorate n r body).scan j (s, t)).2 = (body.scan j s).2 := by
  induction j with
  | zero => exact ⟨rfl, rfl⟩
  | succ j ih =>
    -- the tracker goes beside the state and is not read by the body
    rw [Body.scan_succ, Body.scan_succ]
    simp only [Body.advance, Progress.decorate, ih, and_self]

theorem machine_runFrames (m : Machine) (n : Nat) (k : Int) :
    (m.runFrames n k).1.machine = m.history (List.replicate n (Event.frame k)).flatten := by
  rw [runFrames]
  induction n with
  | zero => rfl
  | succ n ih =>
    rw [Body.scan_succ, List.replicate_succ', List.flatten_concat, history_append, ← ih]
    exact machine_emulate _ k

theorem act_eq_history (m : Machine) (a : Action) : m.act a = m.history a.events := by
  cases a with
  | emulate k => exact machine_emulate m k
  | runFrames n k reporting =>
    rw [Action.events, ← machine_runFrames]
    cases reporting with
    | false => rfl
    | true => exact congrArg Outcome.machine (scan_decorate (frame k) n _ n _ _).1
  | _ => rfl

/-- A property that every event keeps holds all along a history. -/
theorem history_induction {P : Machine → Prop} (hP : ∀ m e, P m → P (m.on e)) {m : Machine}
    (hm : P m) (es : List Event) : P (m.history es) := by
  induction es generalizing m with
  | nil => exact hm
  | cons e es ih => exact ih (hP m e hm)

/-- A run is the history of the events of its actions. -/
theorem run_eq_history (m : Machine) (as : List Action) :
    m.run as = m.history (as.flatMap Action.events) := by
  induction as generalizing m with
  | nil => rfl
  | cons a as ih =>
    rw [List.flatMap_cons, history_append, ← act_eq_history, ← ih]
    rfl

/-- A property that every event keeps holds all along a run. -/
theorem run_induction {P : Machine → Prop} (hP : ∀ m e, P m → P (m.on e)) {m : Machine}
    (hm : P m) (as : List Action) : P (m.run as) := by
  rw [run_eq_history]
  exact history_induction hP hm _

end Machine

end Chip8
