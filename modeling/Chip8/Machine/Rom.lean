import Chip8.Log
import Chip8.Machine.Basic
import Chip8.Storage

/-!
# Loading programs

A program image, or ROM, is copied to the start of programs. It has to be
smaller than the room there, so that the last byte of memory always stays free.
Loading changes nothing but memory, and what an image does not cover keeps its
contents. An image that is read from a file is announced in the log.
-/

namespace Chip8

/-- An image that does not fit. -/
structure RomTooLarge where
  /-- The number of its bytes. -/
  size : Nat
  /-- The number of bytes that an image has to stay below. -/
  limit : Nat
deriving DecidableEq, Repr

/-- The refusal in words. -/
def RomTooLarge.message (e : RomTooLarge) : String :=
  "ROM is " ++ toString e.size ++ " bytes, must be smaller than " ++ toString e.limit ++ " bytes"

/-- Why a file cannot be loaded. -/
inductive LoadError where
  /-- No file can have the name, for there is a null character in it. -/
  | invalidName
  /-- The file cannot be read. -/
  | unreadable (name : String) (cause : FileError)
  /-- Its image does not fit. -/
  | tooLarge (e : RomTooLarge)
deriving DecidableEq, Repr

/-- The reason in words. -/
def LoadError.message : LoadError → String
  | invalidName => "embedded null byte"
  | unreadable name cause => "Cannot read ROM " ++ Text.quoted name ++ ": " ++ cause.message
  | tooLarge e => e.message

namespace Machine

/-- Copies an image to the start of programs. -/
def loadRom (m : Machine) (rom : List UInt8) : Except RomTooLarge Machine :=
  if rom.length < Memory.programSpace then
    .ok { m with memory := m.memory.writeAll Memory.programStart rom }
  else
    .error ⟨rom.length, Memory.programSpace⟩

/-- Loads the image in a file, with the message that announces it. -/
def loadFile (m : Machine) (read : Reader) (name : String) :
    Except LoadError (Machine × Log.Entry) :=
  if '\x00' ∈ name.toList then .error .invalidName
  else
    match read name with
    | .error e => .error (.unreadable name e)
    | .ok rom =>
      match m.loadRom rom with
      | .error e => .error (.tooLarge e)
      | .ok m =>
        .ok (m, Log.info ("Loaded " ++ name ++ " (" ++ toString rom.length ++ " bytes)"))

end Machine

end Chip8
