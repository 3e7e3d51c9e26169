import Chip8.Machine.Step
import Chip8.Progress

/-!
# Frames

Sixty times a second a batch of instructions is run and both timers move on by
one. The sound event is raised on the tick that takes the sound timer from one
to zero, so it is raised once for each expiry. A machine that has stopped does
not tick any more; it only takes the sound event back.
-/

namespace Chip8.Machine

/-- The number of instructions in a frame, unless another is asked for: at
    sixty frames a second, six hundred instructions a second. -/
def instructionsPerFrame : Int := 10

/-- Moves both timers on by one frame. -/
def tick (m : Machine) : Machine :=
  { m with
    delayTimer := if m.delayTimer = 0 then 0 else m.delayTimer - 1
    soundTimer := if m.soundTimer = 0 then 0 else m.soundTimer - 1
    soundEvent := m.soundTimer = 1 }

/-- The end of a frame. -/
def endFrame (m : Machine) : Machine :=
  if m.halted then { m with soundEvent := false } else m.tick

/-- Runs a frame of `k` instructions; none if `k` is negative. -/
def emulate (k : Int) (m : Machine) : Outcome :=
  ((Outcome.silent m).steps k.toNat).andThen fun m => .silent m.endFrame

/-- A frame of `k` instructions as the body of a scan, with the screen after
    the frame as its output. -/
def frame (k : Int) : Body Outcome Screen := fun o _ =>
  let next := o.andThen (emulate k)
  (next, next.machine.display)

/-- Runs `n` frames of `k` instructions. Gives the screen after each. -/
def runFrames (n : Nat) (k : Int) (m : Machine) : Outcome × Array Screen :=
  (frame k).scan n (.silent m)

/-- Runs `n` frames of `k` instructions and reports to a progress bar. -/
def runFramesReporting (n : Nat) (k : Int) (m : Machine) :
    (Outcome × Progress.Tracker) × Array Screen :=
  (Progress.decorate n (Progress.rate n none) (frame k)).scan n (.silent m, .start)

end Chip8.Machine
