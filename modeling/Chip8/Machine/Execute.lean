import Chip8.Instruction.Decode
import Chip8.Machine.Basic

/-!
# Executing an instruction

`Machine.exec` is what each instruction does to the machine, and
`Machine.execute` what a word does: a word that encodes no instruction is
handled by the policy and may be reported.

The address of the next instruction already points past the word when it is
executed. An instruction that fails or waits goes back onto itself and changes
nothing else but the records of the status and of the fault.
-/

namespace Chip8

namespace Alu

/-- The value that an operation leaves in `VX`, from the old `VX` and `VY`. -/
def result (op : Alu) (a b : UInt8) : UInt8 :=
  match op with
  | copy => b
  | or => a ||| b
  | and => a &&& b
  | xor => a ^^^ b
  | add => a + b
  | sub => a - b
  | shiftRight => a >>> 1
  | subFrom => b - a
  | shiftLeft => a <<< 1

/-- The flag that an operation sets, or nothing if it leaves the flag alone. -/
def flag? (op : Alu) (a b : UInt8) : Option Bool :=
  match op with
  | copy | or | and | xor => none
  | add => some (255 < a.toNat + b.toNat)
  | sub => some (b ≤ a)
  | shiftRight => some (a.toNat % 2 = 1)
  | subFrom => some (a ≤ b)
  | shiftLeft => some (128 ≤ a)

end Alu

namespace Machine

/-- Runs an operation on two registers. The flag is written last, so it wins
    over the result when both go to `VF`. -/
def execAlu (m : Machine) (op : Alu) (x y : Fin 16) : Machine :=
  let a := m.v.get x
  let b := m.v.get y
  let m := m.setV x (op.result a b)
  match op.flag? a b with
  | some c => m.setFlag c
  | none => m

/-- The `n` rows at the index register, at the place that two registers name. -/
def spriteAt (m : Machine) (x y : Fin 16) (n : Nat) : Sprite where
  left := (m.v.get x).toNat
  top := (m.v.get y).toNat
  rows := m.memory.readAll m.index.toNat n

/-- Draws a sprite; the flag tells whether it collided with a lit cell. -/
def draw (m : Machine) (s : Sprite) : Machine :=
  { m with display := s.drawOn m.display }.setFlag (s.collides m.display)

/-- Whether the key that `VX` names by its low nibble is down. -/
def keyDown (m : Machine) (x : Fin 16) : Bool :=
  m.keypad.get ⟨(m.v.get x).toNat % 16, Nat.mod_lt _ (by decide)⟩

/-- The offset that a jump may add to its address: `V0`. -/
def offset (m : Machine) : UInt8 :=
  m.v[0]

/-- Moves the index register past `n` addresses, keeping twelve bits. -/
def advanceIndex (m : Machine) (n : Nat) : Machine :=
  { m with index := .ofNat ((m.index.toNat + n) % 4096) }

/-- Adds `VX` to the index register, keeping twelve bits. The flag tells
    whether more were needed. -/
def addIndex (m : Machine) (x : Fin 16) : Machine :=
  (m.advanceIndex (m.v.get x).toNat).setFlag (4095 < m.index.toNat + (m.v.get x).toNat)

/-- The hundreds, tens and ones of a byte. -/
def digits (b : UInt8) : List UInt8 :=
  [b / 100, b / 10 % 10, b % 10]

/-- Stores the digits of `VX` at the index register. -/
def storeDigits (m : Machine) (x : Fin 16) : Machine :=
  { m with memory := m.memory.writeAll m.index.toNat (digits (m.v.get x)) }

/-- Stores `V0` to `VX` at the index register. -/
def storeRegisters (m : Machine) (x : Fin 16) : Machine :=
  { m with memory := m.memory.writeAll m.index.toNat (m.v.toList.take (x + 1)) }

/-- Loads `V0` to `VX` from the index register. -/
def loadRegisters (m : Machine) (x : Fin 16) : Machine :=
  { m with v := .ofFn fun j => if j ≤ x then m.memory.read (m.index.toNat + j) else m.v.get j }

/-- Runs an instruction. -/
def exec (m : Machine) (i : Instruction) : Machine :=
  match i with
  | .clear => { m with display := .blank }
  | .ret =>
    match m.stack.pop? with
    | some (a, s) => { m with pc := a, stack := s }
    | none => m.fail .stackUnderflow i.encode
  | .jump a => { m with pc := .ofNat a }
  | .call a =>
    match m.stack.push? m.pc.toNat with
    | some s => { m with pc := .ofNat a, stack := s }
    | none => m.fail .stackOverflow i.encode
  | .skipEq x k => m.skipIf (m.v.get x = k)
  | .skipNe x k => m.skipIf (m.v.get x ≠ k)
  | .skipEqReg x y => m.skipIf (m.v.get x = m.v.get y)
  | .skipNeReg x y => m.skipIf (m.v.get x ≠ m.v.get y)
  | .load x k => m.setV x k
  | .addImm x k => m.setV x (m.v.get x + k)
  | .alu op x y => m.execAlu op x y
  | .loadIndex a => { m with index := .ofNat a }
  | .jumpOffset a => { m with pc := .ofNat (a + m.offset.toNat) }
  | .random x k => { m with rng := Threefry.next m.rng }.setV x (Threefry.draw m.rng &&& k)
  | .draw x y n =>
    if m.index.toNat + n ≤ Memory.size then m.draw (m.spriteAt x y n)
    else m.fail .memoryOutOfRange i.encode
  | .skipKey x => m.skipIf (m.keyDown x)
  | .skipNoKey x => m.skipIf (!m.keyDown x)
  | .readDelay x => m.setV x m.delayTimer
  | .waitKey x =>
    match m.highestKey? with
    | some k => m.setV x (.ofNat k)
    | none => m.block
  | .setDelay x => { m with delayTimer := m.v.get x }
  | .setSound x => { m with soundTimer := m.v.get x }
  | .addIndex x => m.addIndex x
  | .glyph x => { m with index := .ofNat (Font.address (m.v.get x).toNat) }
  | .decimal x =>
    if m.index.toNat + 2 < Memory.size then m.storeDigits x
    else m.fail .memoryOutOfRange i.encode
  | .store x =>
    if m.index.toNat + x < Memory.size then (m.storeRegisters x).advanceIndex (x + 1)
    else m.fail .memoryOutOfRange i.encode
  | .restore x =>
    if m.index.toNat + x < Memory.size then (m.loadRegisters x).advanceIndex (x + 1)
    else m.fail .memoryOutOfRange i.encode

end Machine

/-! ### Words -/

/-- The report of an unknown word and of where it was met. -/
structure Report where
  /-- The word. -/
  word : UInt16
  /-- Its address. -/
  address : UInt16
deriving DecidableEq, Repr

/-- The report in words. -/
def Report.message (r : Report) : String :=
  "Unknown opcode 0x" ++ Text.hexadecimal 4 r.word.toNat ++
    " at 0x" ++ Text.hexadecimal 3 r.address.toNat

/-- A machine that has run for a while, and what it reported meanwhile. -/
structure Outcome where
  /-- The machine. -/
  machine : Machine
  /-- The reports, oldest first. -/
  reports : Array Report
deriving DecidableEq

namespace Outcome

/-- A machine that has reported nothing. -/
def silent (m : Machine) : Outcome :=
  ⟨m, #[]⟩

/-- Runs on, keeping the reports made so far. -/
def andThen (o : Outcome) (f : Machine → Outcome) : Outcome :=
  let next := f o.machine
  ⟨next.machine, o.reports ++ next.reports⟩

@[simp, grind =]
theorem machine_silent (m : Machine) : (silent m).machine = m := rfl

@[simp, grind =]
theorem reports_silent (m : Machine) : (silent m).reports = #[] := rfl

@[simp, grind =]
theorem machine_andThen (o : Outcome) (f : Machine → Outcome) :
    (o.andThen f).machine = (f o.machine).machine := rfl

@[simp, grind =]
theorem reports_andThen (o : Outcome) (f : Machine → Outcome) :
    (o.andThen f).reports = o.reports ++ (f o.machine).reports := rfl

end Outcome

namespace Machine

/-- Handles the word `w`, which encodes no instruction, as the policy demands. -/
def executeUnknown (m : Machine) (w : UInt16) : Outcome :=
  match m.policy with
  | .halt => .silent (m.fail .unknownOpcode w)
  | .skip => ⟨m, #[⟨w, m.pc - 2⟩]⟩
  | .stall => ⟨m.block, #[⟨w, m.pc - 2⟩]⟩

/-- Executes the word `w`. -/
def execute (m : Machine) (w : UInt16) : Outcome :=
  match Instruction.ofWord? w with
  | some i => .silent (m.exec i)
  | none => m.executeUnknown w

end Machine

end Chip8
