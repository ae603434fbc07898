/-
  Gherkin.Text.Quoted
  ───────────────────
  **A TEXT IN QUOTES, AS MESSAGES SHOW IT.**

  Single quotes stand around the text, double quotes if it holds a single
  quote and no double one.  The chosen quote and the backslash get a
  backslash, line feed, carriage return and tab are written `\n`, `\r`, `\t`,
  and any other character that is not printable is written by its code in
  two, four or eight hexadecimal digits: `\x1b`, `\u200b`, `\U000e0001`.
-/
import Gherkin.Text.Printable

namespace Gherkin.Text

/-- The code in small hexadecimal digits, filled up with zeros to the given width. -/
def hexCode (width n : Nat) : List Char :=
  let digits := Nat.toDigits 16 n
  List.replicate (width - digits.length) '0' ++ digits

/-- One character inside quotes. -/
def quoteChar (mark c : Char) : List Char :=
  if c == mark || c == '\\' then ['\\', c]
  else if c == '\n' then ['\\', 'n']
  else if c == '\r' then ['\\', 'r']
  else if c == '\t' then ['\\', 't']
  else if isPrintable c then [c]
  else if c.toNat < 0x100 then '\\' :: 'x' :: hexCode 2 c.toNat
  else if c.toNat < 0x10000 then '\\' :: 'u' :: hexCode 4 c.toNat
  else '\\' :: 'U' :: hexCode 8 c.toNat

/-- The quotation mark for a text: the double one only where it saves a backslash. -/
def quoteMark (cs : List Char) : Char :=
  if cs.contains '\'' && !cs.contains '"' then '"' else '\''

/-- The text between quotation marks. -/
def quoted (s : String) : String :=
  let cs := s.toList
  let mark := quoteMark cs
  String.ofList (mark :: cs.flatMap (quoteChar mark) ++ [mark])

end Gherkin.Text
