import Chip8.Scan
import Chip8.Text.Numeral

/-!
# Progress

A scan over frames can report to a progress bar. The bar is opened before the
first frame, moved on by a fixed number of frames, the rate, whenever that many
more have been completed, and closed after the last frame, when it is first
moved on by what is left. Reporting changes neither the state nor the outputs
of the scan.
-/

namespace Chip8.Progress

/-- What reaches the bar. -/
inductive Event where
  /-- The bar is opened for a number of frames. -/
  | opened (total : Nat) (description : String)
  /-- The bar is moved on by a number of frames. -/
  | update (frames : Int)
  /-- The bar is closed. -/
  | closed
deriving DecidableEq, Repr

/-- The bar while a scan runs. -/
structure Tracker where
  /-- The frames counted so far, while the bar is open. -/
  counted? : Option Int
  /-- What reached the bar, oldest first. -/
  events : Array Event
deriving DecidableEq, Repr

/-- The unit in which a bar counts. -/
def unit : String := "frame"

/-- The text beside a bar for `n` frames. -/
def description (n : Nat) : String :=
  "Emulating (" ++ Text.grouped n ++ " frames)"

/-- The rate for `n` frames: the one asked for, or a twentieth of the frames
    but at most fifty, brought into the range from one to `n`. -/
def rate (n : Nat) (asked? : Option Int) : Nat :=
  let asked := asked?.getD (max 1 (min (n / 20) 50))
  (max 1 (min asked n)).toNat

namespace Tracker

/-- Before the scan: no bar. -/
def start : Tracker :=
  ⟨none, #[]⟩

/-- Opens a bar for `n` frames. -/
def openFor (n : Nat) (t : Tracker) : Tracker :=
  ⟨some 0, t.events.push (.opened n (description n))⟩

/-- Moves an open bar on by `k` frames. -/
def advance (k : Int) (t : Tracker) : Tracker :=
  match t.counted? with
  | some c => ⟨some (c + k), t.events.push (.update k)⟩
  | none => t

/-- Moves an open bar on to `n` frames and closes it. -/
def finish (n : Nat) (t : Tracker) : Tracker :=
  match t.counted? with
  | some c => ⟨none, (t.events.push (.update (n - c))).push .closed⟩
  | none => t

/-- What happens before frame `i` of `n` at the rate `r`. Frames past the last
    full group are left to `Tracker.finish`. -/
def before (n r i : Nat) (t : Tracker) : Tracker :=
  let t := if i = 0 then t.openFor n else t
  if 0 < i ∧ i % r = 0 ∧ i ≤ n - n % r then t.advance r else t

/-- What happens after frame `i` of `n`. -/
def after (n i : Nat) (t : Tracker) : Tracker :=
  if i + 1 = n then t.finish n else t

end Tracker

variable {σ β : Type}

/-- A body for `n` frames that reports to a bar at the rate `r`. -/
def decorate (n r : Nat) (body : Body σ β) : Body (σ × Tracker) β := fun s i =>
  let t := s.2.before n r i
  let next := body s.1 i
  ((next.1, t.after n i), next.2)

end Chip8.Progress
