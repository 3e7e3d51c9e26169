import Chip8.Fault
import Chip8.Font
import Chip8.Policy
import Chip8.ReturnStack
import Chip8.Sprite
import Chip8.Threefry

/-!
# The machine

The complete state of a machine, the state after reset, and the small updates
of which instructions are made. Everything that a program can observe or
change is in the state, the random stream and the policy included, so running
a machine is a function of it.
-/

namespace Chip8

/-- The state of a machine. -/
@[ext]
structure Machine where
  /-- The random stream. -/
  rng : Threefry.Pair
  /-- The memory. -/
  memory : Memory
  /-- The address of the next instruction. -/
  pc : UInt16
  /-- The screen. -/
  display : Screen
  /-- The addresses to return to. -/
  stack : ReturnStack
  /-- The delay timer. -/
  delayTimer : UInt8
  /-- The sound timer. -/
  soundTimer : UInt8
  /-- Whether the sound timer expired on the last tick. -/
  soundEvent : Bool
  /-- Which keys are down. -/
  keypad : Vector Bool 16
  /-- The registers `V0` to `VF`; the last is also the flag. -/
  v : Vector UInt8 16
  /-- The index register. -/
  index : UInt16
  /-- What the last step did. -/
  status : Status
  /-- Why the machine stopped, if it has. -/
  fault : Option Fault
  /-- The word that it stopped on. -/
  faultWord : UInt16
  /-- What it does with a word that encodes no instruction. -/
  policy : Policy
deriving DecidableEq

namespace Machine

/-- The machine after reset: the font in memory, all else clear. -/
def create (rng : Threefry.Pair) (policy : Policy) : Machine where
  rng := rng
  memory := Font.memory
  pc := .ofNat Memory.programStart
  display := .blank
  stack := .empty
  delayTimer := 0
  soundTimer := 0
  soundEvent := false
  keypad := .replicate 16 false
  v := .replicate 16 0
  index := 0
  status := .advanced
  fault := none
  faultWord := 0
  policy := policy

/-- Whether the machine has stopped. -/
def halted (m : Machine) : Bool :=
  m.fault.isSome

/-- The account of the stop, if the machine has stopped. -/
def fault? (m : Machine) : Option MachineFault :=
  m.fault.map fun f => ⟨f, m.pc, m.faultWord⟩

/-! ### Updates -/

/-- Puts `b` into `VX`. -/
def setV (m : Machine) (x : Fin 16) (b : UInt8) : Machine :=
  { m with v := m.v.set x b }

theorem get_setV (m : Machine) (x z : Fin 16) (b : UInt8) :
    (m.setV x b).v.get z = if z = x then b else m.v.get z := by
  by_cases h : z = x
  · rw [if_pos h, h]
    exact Vector.getElem_set_self _
  · rw [if_neg h]
    exact Vector.getElem_set_ne x.isLt z.isLt fun hx => h (Fin.ext hx.symm)

/-- Puts one or zero into the flag. -/
def setFlag (m : Machine) (b : Bool) : Machine :=
  m.setV (.last 15) b.toUInt8

theorem get_setFlag (m : Machine) (z : Fin 16) (b : Bool) :
    (m.setFlag b).v.get z = if z = 15 then b.toUInt8 else m.v.get z :=
  m.get_setV (.last 15) z b.toUInt8

/-- Skips the next instruction if `c` holds. -/
def skipIf (m : Machine) (c : Bool) : Machine :=
  if c then { m with pc := m.pc + 2 } else m

/-- Goes back onto the instruction that was fetched last. -/
def rewind (m : Machine) : Machine :=
  { m with pc := m.pc - 2 }

/-- Records that the machine stops on `word`, with the given cause. -/
def signal (m : Machine) (cause : Option Fault) (word : UInt16) : Machine :=
  { m with status := .faulted, fault := cause, faultWord := word }

/-- Records a stop whose cause and word are given as numbers, of which only the
    low bits count. They have to be signed numbers of 32 bits. -/
def signalNumbers? (m : Machine) (cause word : Int) : Option Machine :=
  if isSigned 32 cause && isSigned 32 word then
    some (m.signal (Fault.ofCode? (.ofInt cause)) (.ofInt word))
  else none

/-- Stops on the instruction that was fetched last, which is `word`. -/
def fail (m : Machine) (cause : Fault) (word : UInt16) : Machine :=
  m.rewind.signal (some cause) word

/-- Waits on the instruction that was fetched last. -/
def block (m : Machine) : Machine :=
  { m.rewind with status := .blocked }

/-- Takes over which keys are down. -/
def setKeys (m : Machine) (keys : Vector Bool 16) : Machine :=
  { m with keypad := keys }

/-- The greatest key that is down, if one is. -/
def highestKey? (m : Machine) : Option (Fin 16) :=
  (List.finRange 16).reverse.find? fun k => m.keypad[k]

/-- The screen row by row, as ones and zeros. -/
def framebuffer (m : Machine) : List UInt8 :=
  m.display.toRowMajor

end Machine

end Chip8
