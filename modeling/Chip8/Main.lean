import Chip8.CommandLine

/-!
# The program

The command line on a host without a window: the file is read, every line of
standard input is a turn with the codes of the keys that are held, and the end
of the input closes the window. The messages of the session are printed.
-/

namespace Chip8

/-- Why a file could not be read, from what the system said. -/
def FileError.ofSystem : IO.Error → FileError
  | .noFileOrDirectory .. => .notFound
  | .inappropriateType _ code _ => if code = 21 then .isDirectory else .notDirectory
  | e => .other (toString e)

/-- Reads a file. -/
def readFile (name : String) : IO (Except FileError (List UInt8)) := do
  try
    let bytes ← IO.FS.readBinFile name
    return .ok bytes.toList
  catch e =>
    return .error (.ofSystem e)

/-- Reads turns until the input ends. -/
partial def readTurns (input : IO.FS.Stream) (turns : Array Session.Turn) :
    IO (Array Session.Turn) := do
  let line ← input.getLine
  if line.isEmpty then return turns
  readTurns input (turns.push (.ofLine line))

end Chip8

open Chip8 in
/-- Runs the command. -/
def main (arguments : List String) : IO UInt32 := do
  let mut content : Except FileError (List UInt8) := .error .notFound
  let mut turns : Array Session.Turn := #[]
  if let .session rom := CommandLine.parse arguments then
    content ← readFile rom
    turns ← readTurns (← IO.getStdin) #[]
  let result := CommandLine.run .standard (fun _ => content) none turns.toList arguments
  for line in result.output do
    IO.println line
  IO.eprint result.errors
  match result.ending with
  | .refused status | .exited status => return status.toUInt32
  | .escaped _ => return 1
