import Chip8.Beep
import Chip8.Image
import Chip8.Keypad
import Chip8.Machine.Frame
import Chip8.Machine.Rom

/-!
# Sessions

A session loads a program, opens a window and runs the program in it, one frame
a turn, until the window is closed or the machine stops, unless there is no room
for the image of the screen. What it asks of the window system, in order, are its
calls; the window system answers with the format of the mixer and with a list of
turns.

Nothing is asked before the program is loaded and the palette is known. From
then on, whatever happens, the last call gives the window system back. The turn
that closes the window is run to its end.
-/

namespace Chip8.Session

/-- What a session is to do. -/
structure Settings where
  /-- The name of the program file. -/
  rom : String
  /-- The side of the square that stands for a cell, in pixels. -/
  scale : Int
  /-- The number of instructions in a frame. -/
  instructions : Int
  /-- The name of the palette. -/
  scheme : String
  /-- The seed of the random stream. -/
  seed : Int
deriving DecidableEq, Repr

/-- The settings for a program when nothing else is asked for. -/
def Settings.standard (rom : String) : Settings :=
  ⟨rom, 8, Machine.instructionsPerFrame, "classic", 0⟩

/-- The number of frames in a second. -/
def framesPerSecond : Nat := 60

/-! ### Turns -/

/-- What can happen to a window. -/
inductive Event where
  /-- The user closes it. -/
  | quit
  /-- A key goes down. -/
  | keyDown (code : Int)
  /-- A key goes up. -/
  | keyUp (code : Int)
deriving DecidableEq, Repr

/-- The code of the escape key. -/
def escape : Int := 27

/-- Whether an event ends the session. -/
def Event.closes : Event → Bool
  | quit => true
  | keyDown code => code = escape
  | keyUp _ => false

/-- What the window system tells in a turn. -/
structure Turn where
  /-- The codes of the keys that are held. -/
  held : List Int
  /-- What happened since the turn before. -/
  events : List Event
deriving DecidableEq, Repr

namespace Turn

/-- Whether the session ends with this turn. -/
def closes (t : Turn) : Bool :=
  t.events.any Event.closes

/-- The turn that comes when there are no more: the window is closed. -/
def last : Turn :=
  ⟨[], [.quit]⟩

/-- The turn in which the keys are held whose codes stand in a line, set apart
    by blanks. -/
def ofLine (line : String) : Turn :=
  ⟨(line.trimAscii.toString.splitOn " ").filterMap String.toInt?, []⟩

end Turn

/-! ### Calls -/

/-- What a session asks of the window system. -/
inductive Call where
  /-- Ask for a format of the mixer, with a buffer of so many samples. -/
  | configureAudio (format : Beep.Format) (buffer : Nat)
  /-- Start the window system. -/
  | start
  /-- Open a window of the given size in pixels. -/
  | openWindow (width height : Int)
  /-- Set the title of the window. -/
  | setTitle (title : String)
  /-- Make a sound out of samples. -/
  | makeSound (sound : Beep.Sound)
  /-- Set how loud the sound is. -/
  | setVolume (volume : Number)
  /-- Wait until a frame is due, at so many in a second. -/
  | awaitFrame (rate : Nat)
  /-- Play the sound. -/
  | playSound
  /-- Paint an image, given column by column. -/
  | paint {w h : Nat} (columns : Image h w)
  /-- Show what has been painted. -/
  | flip
  /-- Give the window system back. -/
  | stop

/-- How a session ends. -/
inductive Ending where
  /-- The window was closed. -/
  | closed
  /-- The seed is no signed number of 64 bits. -/
  | seedOutOfRange
  /-- The program cannot be loaded. -/
  | notLoaded (e : LoadError)
  /-- No palette has this name. -/
  | unknownScheme (name : String)
  /-- The beep cannot be made, though there is a mixer. -/
  | noBeep (e : Beep.Failure)
  /-- There is no room for the image of the screen. -/
  | noImage (e : Capacity.Refusal)
  /-- The machine stopped. -/
  | stopped (f : MachineFault)
deriving DecidableEq, Repr

/-- What a session did. -/
structure Transcript where
  /-- The calls, in order. -/
  calls : List Call
  /-- The messages, in order. -/
  log : List Log.Entry
  /-- How it ended. -/
  ending : Ending

namespace Transcript

/-- A transcript with nothing but an ending. -/
def ended (e : Ending) : Transcript :=
  ⟨[], [], e⟩

/-- The transcript that starts with some calls and messages. -/
def after (t : Transcript) (calls : List Call) (log : List Log.Entry) : Transcript :=
  ⟨calls ++ t.calls, log ++ t.log, t.ending⟩

/-- The transcript followed by giving the window system back. -/
def released (t : Transcript) : Transcript :=
  { t with calls := t.calls ++ [.stop] }

end Transcript

/-! ### The window -/

/-- An open window. -/
structure Window where
  /-- How much memory there is for its images. -/
  capacity : Capacity
  /-- The side of the square that stands for a cell, in pixels. -/
  scale : Int
  /-- The number of instructions in a frame. -/
  instructions : Int
  /-- The palette. -/
  palette : Palette
  /-- Whether there is a sound to play. -/
  audible : Bool
deriving DecidableEq, Repr

namespace Window

/-- Runs the frame of a turn, with the keys that are held. -/
def frame (w : Window) (m : Machine) (t : Turn) : Outcome :=
  let held := t.held.map fun code => HostCode.number (.whole code)
  (m.setKeys (Keypad.standard.statesHolding held)).emulate w.instructions

/-- The calls that let a machine be heard. -/
def sound (w : Window) (m : Machine) : List Call :=
  if w.audible && m.soundEvent then [.playSound] else []

/-- Shows a machine and goes on with `rest`, if there is room for the image. -/
def present (w : Window) (m : Machine) (rest : Transcript) : Transcript :=
  match m.display.render w.capacity w.palette w.scale with
  | .error e => .ended (.noImage e)
  | .ok r => rest.after [.paint r.image.transpose, .flip] []

/-- Takes a turn: runs its frame and shows the machine, and goes on with `rest`
    unless the session ends with it. -/
def take (w : Window) (m : Machine) (t : Turn) (rest : Machine → Transcript) : Transcript :=
  let o := w.frame m t
  let next : Transcript :=
    match o.machine.fault? with
    | some f => .ended (.stopped f)
    | none =>
      (w.present o.machine (if t.closes then .ended .closed else rest o.machine)).after
        (w.sound o.machine) []
  next.after [.awaitFrame framesPerSecond] (o.reports.toList.map fun r => Log.warning r.message)

/-- Takes the turns in order, and the last turn when there are no more. -/
def play (w : Window) (m : Machine) : List Turn → Transcript
  | [] => w.take m .last fun _ => .ended .closed
  | t :: ts => w.take m t fun m => w.play m ts

end Window

/-! ### The session -/

/-- The format that is asked of the mixer. -/
def wantedFormat : Beep.Format :=
  ⟨44100, -16, 1⟩

/-- The calls that make a tone ready for the given mixer. -/
def prepareSound (cap : Capacity) (mixer : Option Beep.Format) (t : Beep.Tone) :
    Except Beep.Failure (List Call) :=
  match Beep.make cap mixer t with
  | .ok s => .ok [.makeSound s, .setVolume t.volume]
  | .error e => .error e

/-- What is said when the session goes on without sound. -/
def mutedMessage (e : Beep.Failure) : String :=
  "Audio unavailable, running muted: " ++ e.message

/-- What is said when the program starts. -/
def runningMessage (instructions : Int) : String :=
  "Running at " ++ toString framesPerSecond ++ " FPS, " ++ toString instructions ++
    " instructions per frame"

/-- Runs the loaded machine in a window. -/
def inWindow (cap : Capacity) (mixer : Option Beep.Format) (turns : List Turn) (s : Settings)
    (palette : Palette) (m : Machine) : Transcript :=
  let run (audible : Bool) : Transcript :=
    ((⟨cap, s.scale, s.instructions, palette, audible⟩ : Window).play m turns).after []
      [Log.info (runningMessage s.instructions)]
  let sounding : Transcript :=
    match prepareSound cap mixer .standard with
    | .ok calls => (run true).after calls []
    | .error .unavailable => (run false).after [] [Log.warning (mutedMessage .unavailable)]
    | .error e => .ended (.noBeep e)
  (sounding.after
    [.configureAudio wantedFormat 1024, .start,
      .openWindow (screenWidth * s.scale) (screenHeight * s.scale),
      .setTitle ("CHIP-8 - " ++ s.rom)] []).released

/-- Runs a session. -/
def run (cap : Capacity) (read : Reader) (mixer : Option Beep.Format) (turns : List Turn)
    (s : Settings) : Transcript :=
  match Threefry.ofSeed? s.seed with
  | none => .ended .seedOutOfRange
  | some rng =>
    match (Machine.create rng .halt).loadFile read s.rom with
    | .error e => .ended (.notLoaded e)
    | .ok (m, loaded) =>
      let next : Transcript :=
        match Palette.ofName? s.scheme with
        | none => .ended (.unknownScheme s.scheme)
        | some palette => inWindow cap mixer turns s palette m
      next.after [] [loaded]

end Chip8.Session
