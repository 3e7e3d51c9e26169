import Chip8.Number
import Chip8.Text.Listing
import Chip8.Text.Numeral

/-!
# The keypad

The machine has sixteen keys, `0` to `F`. A host has keys of its own, known by
codes, and a keypad assigns one host code to each of the sixteen. Refreshing
the keypad looks every code up in a snapshot of the host keyboard. A lookup may
fail; then no key changes.
-/

namespace Chip8

/-- A code by which a host knows a key. -/
inductive HostCode where
  /-- A number. -/
  | number (n : Number)
  /-- A name. -/
  | name (s : String)
deriving DecidableEq, Repr

/-- Whether two codes stand for the same key: numbers of the same value, or the
    same name. -/
def HostCode.same : HostCode → HostCode → Bool
  | number m, number n => m.same n
  | name s, name t => s = t
  | _, _ => false

/-- The sixteen keys with the host code of each and the latest snapshot. -/
structure Keypad where
  /-- The host code of each key. -/
  codes : Vector HostCode 16
  /-- Which keys are down. -/
  states : Vector Bool 16
deriving DecidableEq, Repr

namespace Keypad

/-- Why a lookup in a snapshot failed. -/
inductive LookupError where
  /-- The code is a number outside the positions of a sequence. -/
  | outOfBounds
  /-- The code is no whole number, but the snapshot is a sequence. -/
  | notAPosition
  /-- The code is not in a mapping. -/
  | missing
deriving DecidableEq, Repr

/-- A snapshot of the host keyboard. -/
inductive Snapshot where
  /-- The codes that are down; all others are up. -/
  | down (codes : List HostCode)
  /-- The states by position; negative positions count from the end. -/
  | sequence (states : Array Bool)
  /-- The states by code. -/
  | mapping (states : List (HostCode × Bool))
deriving DecidableEq, Repr

/-- The value at the position in a sequence that a code names; negative positions count
    from the end. -/
def valueAt {α : Type} (values : Array α) : HostCode → Except LookupError α
  | .number (.whole n) =>
    let position := if n < 0 then n + values.size else n
    if position < 0 then .error .outOfBounds
    else
      match values[position.toNat]? with
      | some v => .ok v
      | none => .error .outOfBounds
  | _ => .error .notAPosition

/-- The value of a code in a mapping. -/
def valueOf {α : Type} (values : List (HostCode × α)) (c : HostCode) : Except LookupError α :=
  match values.find? fun p => c.same p.1 with
  | some p => .ok p.2
  | none => .error .missing

/-- The state that a snapshot gives for a code. -/
def Snapshot.lookup (s : Snapshot) (c : HostCode) : Except LookupError Bool :=
  match s with
  | .down codes => .ok (codes.any c.same)
  | .sequence states => valueAt states c
  | .mapping states => valueOf states c

/-! ### Construction -/

/-- The keypad with the given codes and no key down. -/
def ofCodes (codes : Vector HostCode 16) : Keypad :=
  ⟨codes, .replicate 16 false⟩

/-- The keypad for a map from keys to host codes, or the keys without a code. -/
def ofMap (map : Fin 16 → Option HostCode) : Except (List (Fin 16)) Keypad :=
  match (Vector.ofFn map).mapM id with
  | some codes => .ok (ofCodes codes)
  | none => .error ((List.finRange 16).filter fun k => (map k).isNone)

/-- What is said of a map in which some keys have no code. -/
def missingMessage (keys : List (Fin 16)) : String :=
  "Key map is missing logical keys: " ++
    Text.listing (keys.map fun k => Text.hexadecimal 1 k.val)

/-- The host codes of the standard keypad: the keys `0` to `F` lie on the block
    from `1` to `v` of a keyboard with the letters `q`, `w`, `e` and `r` in its
    top row. -/
def standardCodes : Vector Int 16 :=
  #v[120, 49, 50, 51, 113, 119, 101, 97, 115, 100, 122, 99, 52, 114, 102, 118]

/-- The standard keypad with no key down. -/
def standard : Keypad :=
  ofCodes (standardCodes.map fun n => .number (.whole n))

/-! ### Operations -/

/-- Looks every key up, from `0` to `F`. If a lookup fails, no key changes. -/
def refresh {ε : Type} (k : Keypad) (lookup : HostCode → Except ε Bool) : Except ε Keypad :=
  match k.codes.mapM lookup with
  | .ok states => .ok { k with states := states }
  | .error e => .error e

/-- Lets every key go. -/
def release (k : Keypad) : Keypad :=
  { k with states := .replicate 16 false }

/-- Whether the key is down, if it is one of the sixteen. -/
def isDown? (k : Keypad) (key : Int) : Option Bool :=
  if 0 ≤ key then k.states[key.toNat]? else none

/-- What is said of a number that is none of the sixteen keys. -/
def rangeMessage (key : Int) : String :=
  "Logical key must be in 0..15, got " ++ toString key

/-- The states of the keys when the host keys with the given codes are held. -/
def statesHolding (k : Keypad) (held : List HostCode) : Vector Bool 16 :=
  k.codes.map fun c => held.any c.same

end Keypad

end Chip8
