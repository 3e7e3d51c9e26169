import Chip8.Number
import Chip8.Text.Numeral

/-!
# The log

Messages have one of four levels, and a console prints those at or above its
threshold, one line each: the seconds since the console was made, the level,
the name of the console and the message. On a terminal the level may be
coloured.
-/

namespace Chip8.Log

/-- The importance of a message. -/
inductive Level where
  /-- Details of interest to a developer. -/
  | debug
  /-- The normal course of events. -/
  | info
  /-- Something unexpected. -/
  | warning
  /-- A failure. -/
  | error
deriving DecidableEq, Repr

namespace Level

/-- The name of a level. -/
def name : Level → String
  | debug => "DEBUG"
  | info => "INFO"
  | warning => "WARNING"
  | error => "ERROR"

/-- The levels, least important first. -/
def all : List Level :=
  [debug, info, warning, error]

/-- The position of a level among all. -/
def rank : Level → Nat
  | debug => 0
  | info => 1
  | warning => 2
  | error => 3

/-- The level of the given name. -/
def ofName? (s : String) : Option Level :=
  all.find? (·.name = s)

/-- The control sequence that switches to the colour of a level. -/
def colour : Level → String
  | debug => "\x1b[36m"
  | info => "\x1b[32m"
  | warning => "\x1b[33m"
  | error => "\x1b[31m"

/-- The control sequence that switches colours off. -/
def plain : String := "\x1b[0m"

end Level

/-- A message with its level. -/
structure Entry where
  /-- The level. -/
  level : Level
  /-- The message. -/
  message : String
deriving DecidableEq, Repr

/-- Where messages are printed. -/
structure Console where
  /-- The name in every line. -/
  name : String
  /-- The name of the least level that is printed, in upper case. -/
  threshold : String
  /-- Whether levels are coloured. -/
  coloured : Bool
  /-- When the console was made, in seconds. -/
  start : Number

/-- A character in upper case, as far as the letters of level names go: the
    dotless small letter `ı` becomes `I` too. -/
def upper (c : Char) : Char :=
  if c = 'ı' then 'I' else c.toUpper

namespace Console

/-- The console whose threshold is given in letters of any case. Colours are
    used only on a terminal. -/
def make (name threshold : String) (colours terminal : Bool) (start : Number) : Console :=
  ⟨name, threshold.map upper, colours && terminal, start⟩

/-- The console of the emulator when nothing else is asked for. -/
def standard : Console :=
  make "chip8vm" "INFO" true false (.whole 0)

/-- The line for a message, a number of seconds after the console was made. -/
def line (c : Console) (elapsed : Float) (e : Entry) : String :=
  let level := "[" ++ Text.alignRight 7 e.level.name ++ "]"
  let level := if c.coloured then e.level.colour ++ level ++ Level.plain else level
  "[" ++ Text.alignRight 8 (Decimal.fixed 2 elapsed) ++ "s]" ++ level ++
    "[" ++ c.name ++ "] " ++ e.message

/-- Why a message cannot be printed. -/
inductive Failure where
  /-- One of the levels has no such name. -/
  | unknownLevel
  /-- The time since the console was made cannot be told. -/
  | noTime (e : Number.Failure)
deriving DecidableEq, Repr

/-- The seconds from when the console was made to the time `now`. -/
def elapsed (c : Console) (now : Number) : Except Number.Failure Float := do
  (← now.sub c.start).toFloat

/-- What is printed for a message at the time `now`: a line, or nothing if the
    level is below the threshold. -/
def print (c : Console) (now : Number) (level message : String) : Except Failure String :=
  match Level.ofName? level, Level.ofName? c.threshold with
  | some l, some t =>
    if t.rank ≤ l.rank then
      match c.elapsed now with
      | .ok seconds => .ok (c.line seconds ⟨l, message⟩ ++ "\n")
      | .error e => .error (.noTime e)
    else .ok ""
  | _, _ => .error .unknownLevel

end Console

/-- A failure in words. -/
def Console.Failure.message : Console.Failure → String
  | unknownLevel => "tuple.index(x): x not in tuple"
  | noTime e => e.message

/-- The line of the standard console for a message, before any time has passed. -/
def Entry.line (e : Entry) : String :=
  Console.standard.line 0 e

/-- An informative message. -/
def info (message : String) : Entry :=
  ⟨.info, message⟩

/-- A warning. -/
def warning (message : String) : Entry :=
  ⟨.warning, message⟩

/-- The message of a failure. -/
def failure (message : String) : Entry :=
  ⟨.error, message⟩

end Chip8.Log
