import Chip8.Session
import Chip8.Text.Digit
import Chip8.Text.Literal

/-!
# The command line

The command takes the name of a program file and runs a session with it. The
option `-h`, or `--help`, which may be shortened, prints a help text instead.
The argument `--` makes positional all arguments after it, so that a name may
start with a dash.

The exit status is `0` if the session ended because its window was closed, `1`
if the program could not be loaded or the machine stopped, and `2` if the
arguments make no sense.
-/

namespace Chip8.CommandLine

/-- What the arguments ask for. -/
inductive Request where
  /-- Print the help text. -/
  | help
  /-- Say what is wrong with the arguments. -/
  | misuse (message : String)
  /-- Run the program in a file. -/
  | session (rom : String)
deriving DecidableEq, Repr

/-! ### Single arguments -/

/-- What an argument is, before any `--`. -/
inductive Argument where
  /-- The help option. -/
  | help
  /-- The help option with a value, which it does not take. -/
  | helpWith (value : String)
  /-- An option that there is not. -/
  | unknown
  /-- No option. -/
  | positional
deriving DecidableEq, Repr

/-- What the argument `-h` is when characters follow. The help option may be
    repeated without its dash; all other characters are taken for a value. -/
def Argument.afterShortHelp : List Char → Argument
  | [] => help
  | 'h' :: r => afterShortHelp r
  | r => helpWith (.ofList r)

/-- What the argument `-h=` is when a value follows. A value may repeat the help
    option, but it has to have a character. -/
def Argument.ofShortValue : List Char → Argument
  | [] => helpWith ""
  | value => afterShortHelp value

/-- Whether characters are decimal digits, and at least one. -/
def isDigits (l : List Char) : Bool :=
  !l.isEmpty && l.all Text.isDecimalDigit

/-- Whether characters are a decimal number without a sign: digits, or a point
    with digits after it and perhaps before it. -/
def isNumber (l : List Char) : Bool :=
  let whole := l.takeWhile Text.isDecimalDigit
  match l.drop whole.length with
  | [] => isDigits whole
  | c :: fraction => c = '.' && isDigits fraction

/-- A line without the line break that ends it, if one does. -/
def withoutBreak (l : List Char) : List Char :=
  if l.getLast? = some '\n' then l.dropLast else l

/-- What an argument is, before any `--`. A negative number is no option, and
    may be followed by a line break; nor is an argument with a space in it. -/
def Argument.ofChars : List Char → Argument
  | '-' :: 'h' :: '=' :: r => ofShortValue r
  | '-' :: 'h' :: r => afterShortHelp r
  | '-' :: '-' :: r =>
    let name := r.takeWhile (· ≠ '=')
    if name.isPrefixOf "help".toList then
      match r.drop name.length with
      | [] => help
      | _ :: value => helpWith (.ofList value)
    else if ' ' ∈ r then positional
    else unknown
  | '-' :: r => if r = [] ∨ isNumber (withoutBreak r) ∨ ' ' ∈ r then positional else unknown
  | _ => positional

/-! ### All arguments -/

/-- What has been found in the arguments so far. -/
structure Found where
  /-- The name of the program file. -/
  rom? : Option String
  /-- The arguments that have no use. -/
  extra : List String
deriving DecidableEq, Repr

namespace Found

/-- The request that the arguments make, when there are no more. A missing name
    is reported rather than extra arguments. -/
def request (f : Found) : Request :=
  match f.rom?, f.extra with
  | none, _ => .misuse "the following arguments are required: rom"
  | some rom, [] => .session rom
  | some _, extra => .misuse ("unrecognized arguments: " ++ " ".intercalate extra)

/-- Takes a positional argument. -/
def take (f : Found) (a : String) : Found :=
  match f.rom? with
  | none => { f with rom? := some a }
  | some _ => { f with extra := f.extra ++ [a] }

/-- Takes `--` and all arguments after it. The dashes have no use unless the
    name stands right before or comes after them. -/
def takeRest (f : Found) (romBefore : Bool) (rest : List String) : Found :=
  if romBefore ∨ (f.rom? = none ∧ rest ≠ []) then rest.foldl take f
  else { f with extra := f.extra ++ "--" :: rest }

end Found

/-- The request of the arguments that follow what has been found. `romBefore`
    tells whether the name of the program file stands right before them. -/
def parseFrom (f : Found) (romBefore : Bool) : List String → Request
  | [] => f.request
  | a :: rest =>
    if a = "--" then (f.takeRest romBefore rest).request
    else
      match Argument.ofChars a.toList with
      | .help => .help
      | .helpWith value =>
        .misuse ("argument -h/--help: ignored explicit argument " ++ Text.literal value)
      | .unknown => parseFrom { f with extra := f.extra ++ [a] } false rest
      | .positional => parseFrom (f.take a) f.rom?.isNone rest

/-- The request that the arguments make. -/
def parse (arguments : List String) : Request :=
  parseFrom ⟨none, []⟩ false arguments

/-! ### The command -/

/-- How the command is used, in one line. -/
def usage : String :=
  "usage: chip8vm [-h] rom"

/-- The lines of the help text. -/
def helpText : List String :=
  [usage,
   "",
   "Run a CHIP-8 ROM.",
   "",
   "positional arguments:",
   "  rom         path to the ROM file",
   "",
   "options:",
   "  -h, --help  show this help message and exit"]

/-- What is said about arguments that make no sense. -/
def misuseText (message : String) : String :=
  usage ++ "\nchip8vm: error: " ++ message ++ "\n"

/-- How the command ends. -/
inductive Ending where
  /-- Without a session, with an exit status. -/
  | refused (status : Nat)
  /-- After a session, with an exit status. -/
  | exited (status : Nat)
  /-- By a failure of the session that the command does not handle. -/
  | escaped (e : Session.Ending)
deriving DecidableEq, Repr

/-- What the command did. -/
structure Result where
  /-- The calls of its session. -/
  calls : List Session.Call
  /-- The lines of the help text, if it was asked for. -/
  help : List String
  /-- The messages that it logged. -/
  log : List Log.Entry
  /-- What it said to standard error. -/
  errors : String
  /-- How it ended. -/
  ending : Ending

/-- The lines that the command printed. -/
def Result.output (r : Result) : List String :=
  r.help ++ r.log.map Log.Entry.line

/-- What is said of a failure that the command handles. -/
def failureMessage? : Session.Ending → Option String
  | .notLoaded .invalidName => none
  | .notLoaded e => some e.message
  | .stopped f => some ("Machine stopped: " ++ f.message)
  | _ => none

/-- The exit status and the last message after a session. -/
def conclude (e : Session.Ending) : Ending × List Log.Entry :=
  match e, failureMessage? e with
  | .closed, _ => (.exited 0, [])
  | _, some message => (.exited 1, [Log.failure message])
  | e, none => (.escaped e, [])

/-- The result of a session. -/
def Result.ofTranscript (t : Session.Transcript) : Result :=
  let (ending, log) := conclude t.ending
  ⟨t.calls, [], t.log ++ log, "", ending⟩

/-- Runs the command with the given arguments. -/
def run (cap : Capacity) (read : Reader) (mixer : Option Beep.Format)
    (turns : List Session.Turn) (arguments : List String) : Result :=
  match parse arguments with
  | .help => ⟨[], helpText, [], "", .refused 0⟩
  | .misuse message => ⟨[], [], [], misuseText message, .refused 2⟩
  | .session rom => .ofTranscript (Session.run cap read mixer turns (.standard rom))

end Chip8.CommandLine
