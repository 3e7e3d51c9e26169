import Chip8.Text.Numeral
import Chip8.Text.Unseen

/-!
# Literals

The written form of a text of any characters. It stands between single quotes,
or between double quotes if it has a single quote and no double quote in it.
Inside, a backslash and the quote that encloses the text have a backslash in
front, and a character that cannot be seen is written by its code.
-/

namespace Chip8.Text

/-- The code of a character in two, four or eight hexadecimal digits, with a
    letter in front that tells how many. -/
def characterCode (c : Char) : List Char :=
  let digits := Nat.toDigits 16 c.toNat
  if c.toNat < Nat.pow 2 8 then 'x' :: padLeft 2 '0' digits
  else if c.toNat < Nat.pow 2 16 then 'u' :: padLeft 4 '0' digits
  else 'U' :: padLeft 8 '0' digits

/-- A character as it is written between two `quote`s. -/
def writeCharacter (quote c : Char) : List Char :=
  if c = quote ∨ c = '\\' then ['\\', c]
  else if c = '\n' then ['\\', 'n']
  else if c = '\r' then ['\\', 'r']
  else if c = '\t' then ['\\', 't']
  else if unseen c then '\\' :: characterCode c
  else [c]

/-- The written form of a text. -/
def literal (s : String) : String :=
  let l := s.toList
  let quote := if '\'' ∈ l ∧ '"' ∉ l then '"' else '\''
  .ofList (quote :: l.flatMap (writeCharacter quote) ++ [quote])

end Chip8.Text
