import Chip8.Signed

/-!
# Capacity

How large arrays may be. An array has an extent for each of its axes. Extents
and numbers of bytes are signed numbers of 64 bits, extents are not negative,
and the array has to fit into memory. An axis that has no elements is left out
of the number of bytes.
-/

namespace Chip8

/-- How much memory there is for an array. -/
structure Capacity where
  /-- The number of bytes that an array may have. -/
  limit : Nat
  /-- There is a megabyte at least. -/
  le_limit : Nat.pow 2 20 ≤ limit
  /-- A signed number of 64 bits tells how much there is. -/
  limit_lt : limit < Nat.pow 2 63
deriving DecidableEq, Repr

namespace Capacity

/-- The memory of a machine of which nothing else is known. -/
def standard : Capacity :=
  ⟨Nat.pow 2 36, by decide, by decide⟩

/-- Why there is no room for an array. -/
inductive Refusal where
  /-- An extent is no signed number of 64 bits. -/
  | extent
  /-- An extent is negative. -/
  | negative
  /-- The number of bytes is no signed number of 64 bits. -/
  | size
  /-- What is to be repeated so often that no signed number of 64 bits tells. -/
  | count
  /-- There is not so much memory. -/
  | memory
deriving DecidableEq, Repr

/-- A refusal in words. -/
def Refusal.message : Refusal → String
  | extent => "Maximum allowed dimension exceeded"
  | negative => "negative dimensions are not allowed"
  | size => "array is too big; `arr.size * arr.dtype.itemsize` is larger than the " ++
      "maximum possible size."
  | count => "repeated too often"
  | memory => "out of memory"

/-- The number of bytes of an array with the given extents, if one element has
    `bytes` bytes. -/
def measure (bytes : Nat) : List Int → Except Refusal Nat
  | [] => .ok bytes
  | e :: r =>
    if e < 0 then .error .negative
    else if e = 0 then measure bytes r
    else if isSigned 64 (bytes * e) then measure (bytes * e.toNat) r
    else .error .size

/-- Makes room for an array of elements of `bytes` bytes, and gives its extents. -/
def reserve (cap : Capacity) (bytes : Nat) (extents : List Int) : Except Refusal (List Int) :=
  if extents.all (isSigned 64) then
    match measure bytes extents with
    | .error e => .error e
    | .ok n => if n ≤ cap.limit then .ok extents else .error .memory
  else .error .extent

/-- The extent of an axis whose `n` elements are repeated `count` times each. It
    is kept to 64 bits. -/
def repeated (n count : Int) : Except Refusal Int :=
  if isSigned 64 count then .ok ((n * count).bmod (Nat.pow 2 64)) else .error .count

end Capacity

end Chip8
