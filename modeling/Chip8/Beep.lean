import Chip8.Capacity
import Chip8.Number

/-!
# The beep

The beep is a square wave of whole periods, made for the format of an audio
mixer. The first half of a period, rounded down, is at the positive amplitude,
the rest at the negative one. There is at least one period, and otherwise as
many as fit the duration. A sound is kept as one period, in stretches of equal
samples, with the number of periods.
-/

namespace Chip8.Beep

/-- The format of a mixer. -/
structure Format where
  /-- Samples a second. -/
  rate : Int
  /-- Bits a sample, negative if samples are signed. -/
  bits : Int
  /-- Samples played at a time. -/
  channels : Int
deriving DecidableEq, Repr

/-- A tone to be played. -/
structure Tone where
  /-- Periods a second. -/
  frequency : Number
  /-- The length in seconds. -/
  duration : Number
  /-- The loudness. -/
  volume : Number
deriving DecidableEq, Repr

/-- The tone of the emulator. -/
def Tone.standard : Tone :=
  ⟨.whole 440, .real 0.1, .real 0.1⟩

/-- Equal samples that follow each other. -/
structure Stretch where
  /-- The number of samples. -/
  length : Nat
  /-- The value of each. -/
  level : Int
deriving DecidableEq, Repr

/-- Periods that are all alike, the same for every channel. -/
structure Sound where
  /-- The samples of a period. -/
  period : List Stretch
  /-- The number of periods. -/
  periods : Nat
  /-- The number of channels. -/
  channels : Int
deriving DecidableEq, Repr

namespace Sound

/-- The samples of a period, one by one. -/
def periodSamples (s : Sound) : List Int :=
  s.period.flatMap fun t => List.replicate t.length t.level

/-- The samples of a channel, one by one. -/
def samples (s : Sound) : List Int :=
  (List.replicate s.periods s.periodSamples).flatten

/-- The number of samples of a channel. -/
def size (s : Sound) : Nat :=
  s.periods * s.period.foldr (fun t n => t.length + n) 0

@[simp]
theorem length_samples (s : Sound) : s.samples.length = s.size := by
  have h : (s.period.map Stretch.length).sum = s.period.foldr (fun t n => t.length + n) 0 := by
    rw [List.sum_eq_foldr, List.foldr_map]
  simp [samples, periodSamples, size, List.length_flatMap, ← h]

end Sound

/-- Why a beep cannot be made. -/
inductive Failure where
  /-- There is no mixer. -/
  | unavailable
  /-- The period or the number of samples cannot be told. -/
  | unbounded (e : Number.Failure)
  /-- There is no room for the samples. -/
  | noRoom (e : Capacity.Refusal)
  /-- The amplitude does not fit a sample of sixteen bits. -/
  | amplitudeTooLarge
  /-- The period is shorter than half a sample. -/
  | emptyPeriod
deriving DecidableEq, Repr

/-- A failure in words. -/
def Failure.message : Failure → String
  | unavailable => "mixer not initialized"
  | unbounded e => e.message
  | noRoom e => e.message
  | amplitudeTooLarge => "amplitude too large"
  | emptyPeriod => "empty period"

/-- The greatest sample of the given number of bits. -/
def amplitude (bits : Int) : Nat :=
  Nat.pow 2 (bits.natAbs - 1) - 1

/-- The number of periods of `period` samples in a wave that may have `budget`
    samples, and one if not even one fits. -/
def periods (period budget : Int) : Nat :=
  (max 1 (budget / period)).toNat

/-- A period of a square wave, with `n` samples. -/
def wave (n amplitude : Nat) : List Stretch :=
  [⟨n / 2, amplitude⟩, ⟨n - n / 2, -amplitude⟩]

/-- The bytes of a sample. -/
def sampleBytes : Nat := 2

/-- Makes room for `n` periods, and for the samples of every channel if there is
    more than one. -/
def room (cap : Capacity) (period n channels : Int) :
    Except Capacity.Refusal (List Int) := do
  let n ← Capacity.repeated 1 n
  let one ← cap.reserve sampleBytes [n, period]
  if channels ≤ 1 then return one
  let channels ← Capacity.repeated 1 channels
  cap.reserve sampleBytes [n * period, channels]

/-- The square wave with a period of `period` samples that may have `budget`
    samples, for the given number of bits and channels. -/
def square (cap : Capacity) (period : Int) (budget : Except Number.Failure Int)
    (bits channels : Int) : Except Failure Sound :=
  match cap.reserve sampleBytes [period] with
  | .error e => .error (.noRoom e)
  | .ok _ =>
    if 16 < bits.natAbs then .error .amplitudeTooLarge
    else
      match budget with
      | .error e => .error (.unbounded e)
      | .ok budget =>
        if period = 0 then .error .emptyPeriod
        else
          let n := periods period budget
          match room cap period n channels with
          | .error e => .error (.noRoom e)
          | .ok _ => .ok ⟨wave period.toNat (amplitude bits), n, channels⟩

/-- The number of samples in a period of a frequency, rounded to a whole one. -/
def period (rate : Int) (frequency : Number) : Except Number.Failure Int := do
  Number.round (← (Number.whole rate).div frequency)

/-- The number of whole samples in a duration. -/
def budget (rate : Int) (duration : Number) : Except Number.Failure Int := do
  (← duration.mul (.whole rate)).truncate

/-- A tone as a sound for the given mixer. -/
def make (cap : Capacity) (mixer : Option Format) (t : Tone) : Except Failure Sound :=
  match mixer with
  | none => .error .unavailable
  | some f =>
    match period f.rate t.frequency with
    | .error e => .error (.unbounded e)
    | .ok period => square cap period (budget f.rate t.duration) f.bits f.channels

end Chip8.Beep
