import Chip8.Beep
import Chip8.Bitmap
import Chip8.Capacity
import Chip8.CommandLine
import Chip8.Decimal.Binary
import Chip8.Decimal.Fixed
import Chip8.Decimal.Nearest
import Chip8.Decimal.Shortest
import Chip8.Fault
import Chip8.Font
import Chip8.Image
import Chip8.Instruction.Basic
import Chip8.Instruction.Decode
import Chip8.Instruction.Fields
import Chip8.Keypad
import Chip8.Log
import Chip8.Machine.Basic
import Chip8.Machine.Execute
import Chip8.Machine.Frame
import Chip8.Machine.Rom
import Chip8.Machine.Step
import Chip8.Main
import Chip8.Memory
import Chip8.Number
import Chip8.Palette
import Chip8.Policy
import Chip8.Progress
import Chip8.Proofs.Beep
import Chip8.Proofs.Capacity
import Chip8.Proofs.CommandLine
import Chip8.Proofs.Image
import Chip8.Proofs.Instruction.Encoding
import Chip8.Proofs.Instruction.Fields
import Chip8.Proofs.Instruction.Forms
import Chip8.Proofs.Keypad
import Chip8.Proofs.Machine.Arithmetic
import Chip8.Proofs.Machine.Calls
import Chip8.Proofs.Machine.ControlFlow
import Chip8.Proofs.Machine.Digits
import Chip8.Proofs.Machine.Drawing
import Chip8.Proofs.Machine.Execute
import Chip8.Proofs.Machine.Faults
import Chip8.Proofs.Machine.Footprint
import Chip8.Proofs.Machine.Frames
import Chip8.Proofs.Machine.Input
import Chip8.Proofs.Machine.Invariant
import Chip8.Proofs.Machine.Keys
import Chip8.Proofs.Machine.Loading
import Chip8.Proofs.Machine.Policy
import Chip8.Proofs.Machine.Random
import Chip8.Proofs.Machine.Run
import Chip8.Proofs.Machine.Sound
import Chip8.Proofs.Machine.Step
import Chip8.Proofs.Machine.StraightLine
import Chip8.Proofs.Machine.Timers
import Chip8.Proofs.Machine.Transfer
import Chip8.Proofs.Memory
import Chip8.Proofs.Progress
import Chip8.Proofs.ReturnStack
import Chip8.Proofs.Session.Muted
import Chip8.Proofs.Session.Release
import Chip8.Proofs.Session.Run
import Chip8.Proofs.Session.Turns
import Chip8.Proofs.Session.Views
import Chip8.Proofs.Sprite
import Chip8.ReturnStack
import Chip8.Scan
import Chip8.Session
import Chip8.Signed
import Chip8.Sprite
import Chip8.Storage
import Chip8.Text.Digit
import Chip8.Text.Listing
import Chip8.Text.Literal
import Chip8.Text.Numeral
import Chip8.Text.Unseen
import Chip8.Threefry
import Chip8.Video
