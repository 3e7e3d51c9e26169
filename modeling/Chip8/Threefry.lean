import Chip8.Signed

/-!
# The random stream

Random bytes come from the block function Threefry-2x32 with twenty rounds.
The state of a stream is its key. Encrypting the counter `(0, 0)` gives the
key of the rest of the stream, and the counter `(0, 1)` gives a subkey that is
spent on one draw; a stream is therefore determined by its seed and the number
of draws made from it.
-/

namespace Chip8.Threefry

/-- Two words of 32 bits: a key, a counter or an encrypted block. -/
structure Pair where
  /-- The first word. -/
  fst : UInt32
  /-- The second word. -/
  snd : UInt32
deriving DecidableEq, Repr

/-- Rotation to the left by `r` bits, for `r` from 1 to 31. -/
def rotateLeft (x r : UInt32) : UInt32 :=
  (x <<< r) ||| (x >>> (32 - r))

/-- One round with rotation `r`. -/
def mix (b : Pair) (r : UInt32) : Pair :=
  let s := b.fst + b.snd
  ⟨s, rotateLeft b.snd r ^^^ s⟩

/-- The rotations of the four rounds of group `i`. -/
def rotations (i : Nat) : List UInt32 :=
  if i % 2 = 0 then [13, 15, 26, 6] else [17, 29, 16, 24]

/-- The key schedule: the two words of the key and their parity word, in turn. -/
def schedule (k : Pair) (i : Nat) : UInt32 :=
  match i % 3 with
  | 0 => k.fst
  | 1 => k.snd
  | _ => k.fst ^^^ k.snd ^^^ 0x1BD11BDA

/-- Group `i` of four rounds, followed by the injection of the key. -/
def group (k b : Pair) (i : Nat) : Pair :=
  let b := (rotations i).foldl mix b
  ⟨b.fst + schedule k (i + 1), b.snd + schedule k (i + 2) + .ofNat (i + 1)⟩

/-- The counter `c` encrypted under the key `k`: five groups of four rounds. -/
def block (k c : Pair) : Pair :=
  (List.range 5).foldl (group k) ⟨c.fst + schedule k 0, c.snd + schedule k 1⟩

/-- The key of the stream with the given seed, taken modulo `2 ^ 32`. -/
def ofSeed (seed : Int) : Pair :=
  ⟨0, .ofInt seed⟩

/-- The key of the stream with the given seed, if the seed is a signed number
    of 64 bits. -/
def ofSeed? (seed : Int) : Option Pair :=
  if isSigned 64 seed then some (ofSeed seed) else none

/-- The key of the rest of the stream, once a subkey has been split off. -/
def next (k : Pair) : Pair :=
  block k ⟨0, 0⟩

/-- The subkey split off for one draw. -/
def subkey (k : Pair) : Pair :=
  block k ⟨0, 1⟩

/-- The random byte of a subkey. -/
def byte (k : Pair) : UInt8 :=
  let b := block k ⟨0, 0⟩
  (b.fst ^^^ b.snd).toUInt8

/-- The byte that a stream draws next. -/
def draw (k : Pair) : UInt8 :=
  byte (subkey k)

end Chip8.Threefry
