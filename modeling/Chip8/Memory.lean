/-!
# Memory

The machine has 4096 bytes. An access past the end is defined: a read gives
the last byte, a write is dropped. Instructions check their range beforehand,
so a program never sees either.
-/

namespace Chip8

/-- The contents of memory. -/
@[ext]
structure Memory where
  /-- The byte at each address. -/
  bytes : Vector UInt8 4096
deriving DecidableEq

namespace Memory

/-- The number of bytes. -/
def size : Nat := 4096

/-- Where programs are loaded and start. -/
def programStart : Nat := 0x200

/-- The number of bytes from the start of programs to the end of memory. -/
def programSpace : Nat := size - programStart

/-- Memory filled with zeros. -/
def zero : Memory :=
  ⟨.replicate 4096 0⟩

/-- The byte at `a`, or the last byte if `a` lies past the end. -/
def read (m : Memory) (a : Nat) : UInt8 :=
  m.bytes[min a 4095]

/-- The `n` bytes from `a` on. -/
def readAll (m : Memory) (a n : Nat) : List UInt8 :=
  (List.range n).map fun j => m.read (a + j)

/-- Puts `b` at `a`; nothing changes if `a` lies past the end. -/
def write (m : Memory) (a : Nat) (b : UInt8) : Memory :=
  ⟨m.bytes.setIfInBounds a b⟩

/-- Puts a list of bytes at `a`, `a + 1` and so on. -/
def writeAll (m : Memory) (a : Nat) : List UInt8 → Memory
  | [] => m
  | b :: bs => (m.write a b).writeAll (a + 1) bs

/-- A word: the byte at `a` above the byte at `b`. -/
def word (m : Memory) (a b : Nat) : UInt16 :=
  ((m.read a).toUInt16 <<< 8) ||| (m.read b).toUInt16

theorem read_write {m : Memory} {a c : Nat} {b : UInt8} (hc : c < size) :
    (m.write a b).read c = if a = c then b else m.read c := by
  have h : min c 4095 = c := by simp only [size] at hc; omega
  simp only [read, write, h]
  exact Vector.getElem_setIfInBounds hc

/-- Bytes put into memory leave the bytes before and after them alone. -/
theorem read_writeAll_of_outside {a c : Nat} (l : List UInt8) (hc : c < size)
    (h : c < a ∨ a + l.length ≤ c) (m : Memory) : (m.writeAll a l).read c = m.read c := by
  induction l generalizing m a with
  | nil => rfl
  | cons b l ih =>
    rw [List.length_cons] at h
    have hne : a ≠ c := by omega
    rw [writeAll, ih (by omega), read_write hc, if_neg hne]

theorem ext_read {m m' : Memory} (h : ∀ a < size, m.read a = m'.read a) : m = m' := by
  refine Memory.ext (Vector.ext fun a ha => ?_)
  have hmin : min a 4095 = a := by omega
  simpa only [read, hmin] using h a ha

end Memory

end Chip8
