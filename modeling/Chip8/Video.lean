import Chip8.Image
import Chip8.Log
import Chip8.Sprite

/-!
# Videos

A recorded run is written to a file as a video. Before that there has to be room
for the run, its dimensions are checked, then the name of the palette, then
whether a video can have frames of that size, and then whether there is room for
a frame. Afterwards the number of frames, the frame rate and the running time
are logged.
-/

namespace Chip8.Video

/-- A run to be written. -/
structure Recording where
  /-- The dimensions of the run: frames, columns and rows. -/
  shape : List Int
  /-- Frames a second. -/
  rate : Number
  /-- The side of the square that stands for a cell, in pixels. -/
  scale : Int
  /-- The name of the palette. -/
  scheme : String
deriving DecidableEq, Repr

/-- Why a run cannot be written as a video. -/
inductive Refusal where
  /-- There is no room for the run or for a frame. -/
  | noRoom (e : Capacity.Refusal)
  /-- The run is not a sequence of screens. -/
  | dimensions (shape : List Int)
  /-- No palette has this name. -/
  | scheme (name : String)
  /-- No video has frames of that size or so many in a second. -/
  | format
  /-- The frame rate is zero, so there is no running time. -/
  | noRate
deriving DecidableEq, Repr

/-- A refusal in words. -/
def Refusal.message : Refusal → String
  | noRoom e => e.message
  | dimensions shape => "Expected display shape (N, 64, 32), got " ++ Text.tuple shape
  | scheme name => Palette.unknownMessage name
  | format => "no such format"
  | noRate => "no frame rate"

/-- The number of frames in a run of the given dimensions, if it is a sequence
    of screens. -/
def frameCount? : List Int → Option Nat
  | [n, 64, 32] => some n.toNat
  | _ => none

/-- Whether a video can have frames at a scale, and so many in a second: the
    width and the height are signed numbers of 32 bits. -/
def hasFormat (scale : Int) (rate : Number) : Bool :=
  isSigned 32 (screenWidth * scale) && isSigned 32 (screenHeight * scale) && rate.toFloat.isOk

/-- Checks whether a run can be written. Gives the number of its frames. -/
def check (cap : Capacity) (r : Recording) : Except Refusal Nat :=
  match cap.reserve 1 r.shape with
  | .error e => .error (.noRoom e)
  | .ok _ =>
    match frameCount? r.shape, Palette.ofName? r.scheme with
    | none, _ => .error (.dimensions r.shape)
    | some _, none => .error (.scheme r.scheme)
    | some n, some _ =>
      if !hasFormat r.scale r.rate then .error .format
      else if n = 0 then .ok n
      else
        match Bitmap.room cap screenWidth screenHeight r.scale with
        | .error e => .error (.noRoom e)
        | .ok _ => .ok n

/-- What is said of a video that has been written. -/
def savedMessage (file : String) (frames : Nat) (rate : Number) (seconds : Float) : String :=
  "Video saved: " ++ file ++ " (" ++ toString frames ++ " frames, " ++ rate.text ++ " FPS, " ++
    Decimal.fixed 1 seconds ++ "s)"

/-- The log of writing a run to a file. -/
def log (cap : Capacity) (file : String) (r : Recording) : Except Refusal Log.Entry :=
  match check cap r with
  | .error e => .error e
  | .ok n =>
    match (Number.whole n).div r.rate with
    | .error _ => .error .noRate
    | .ok seconds => .ok (Log.info (savedMessage file n r.rate seconds))

end Chip8.Video
