/-!
# The return stack

Sixteen slots of 12-bit addresses and a pointer that counts the slots in use.
Popping clears the slot, so a stack that is only pushed and popped is a list of
at most sixteen addresses followed by zeros. The pointer is any whole number, and
pushing and popping say what happens when it counts nothing: below zero nothing
can be popped, and a push finds its slot from the end, if it finds one.
-/

namespace Chip8

/-- The addresses to return to. -/
@[ext]
structure ReturnStack where
  /-- The slots, oldest first. -/
  slots : Vector UInt16 16
  /-- The number of slots in use. -/
  pointer : Int
deriving DecidableEq, Repr

namespace ReturnStack

/-- The number of slots. -/
def capacity : Nat := 16

/-- The stack with no slot in use. -/
def empty : ReturnStack :=
  ⟨.replicate 16 0, 0⟩

/-- The stack that holds the given values, oldest first. -/
def ofList (l : List UInt16) : ReturnStack :=
  ⟨.ofFn fun i => l.getD i 0, l.length⟩

/-- The place that an index stands for. A negative one counts from the end. -/
def place (i : Int) : Int :=
  if i < 0 then i + capacity else i

/-- The slots with a value written at an index. Where there is no such place,
    nothing is written. -/
def write (slots : Vector UInt16 16) (i : Int) (a : UInt16) : Vector UInt16 16 :=
  if place i < 0 then slots else slots.setIfInBounds (place i).toNat a

/-- Pushes the low twelve bits of an address, or fails if every slot is in use. -/
def push? (s : ReturnStack) (a : Int) : Option ReturnStack :=
  if s.pointer < capacity then
    some ⟨write s.slots s.pointer (.ofInt (a % 4096)), s.pointer + 1⟩
  else
    none

/-- The newest address and the stack without it, or nothing if no slot is in use. -/
def pop? (s : ReturnStack) : Option (UInt16 × ReturnStack) :=
  if 0 < s.pointer then
    let p := s.pointer - 1
    some (s.slots[min p.toNat 15], ⟨write s.slots p 0, p⟩)
  else
    none

/-! ### Histories of pushes and pops -/

/-- A request to the stack. -/
inductive Request where
  /-- Push an address, of which the low twelve bits are kept. -/
  | push (a : Int)
  /-- Pop the newest address. -/
  | pop
deriving DecidableEq, Repr

/-- What a request reports. -/
inductive Reply where
  /-- Whether a push found every slot in use. -/
  | pushed (overflow : Bool)
  /-- The address popped, and whether there was none, in which case it is zero. -/
  | popped (address : UInt16) (underflow : Bool)
deriving DecidableEq, Repr

/-- Performs a request; one that fails leaves the stack as it is. -/
def perform (s : ReturnStack) : Request → Reply × ReturnStack
  | .push a =>
    match s.push? a with
    | some t => (.pushed false, t)
    | none => (.pushed true, s)
  | .pop =>
    match s.pop? with
    | some (a, t) => (.popped a false, t)
    | none => (.popped 0 true, s)

end ReturnStack

end Chip8
