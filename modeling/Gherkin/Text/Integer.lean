/-
  Gherkin.Text.Integer
  ────────────────────
  **INTEGERS WRITTEN AS TEXTS.**

  White space may surround the text and one sign may stand in front.  What
  follows is brought into plain form (`plainForm`) in three steps:

    • `dropLeadingZeros` — a leading zero goes, with all zeros and underscores
      after it, as long as something is left; what is left may start with a
      minus sign of its own,
    • `cutZeroFraction` — a point with nothing but zeros after it goes,
    • `dropSeparators` — underscores go, if each of them stands alone between
      two other characters.

  The plain form has to be a numeral: `0`, or digits that do not start with a
  zero, with at most one minus sign in front.  More than `maxDigits` digits
  are too many, whatever comes after them.
-/
import Gherkin.Text.Blank

namespace Gherkin.Text

/-- Why a text stands for no integer. -/
inductive IntegerFault where
  | malformed
  | tooLong
  deriving DecidableEq

/-- The greatest number of digits of an integer that is written as a text. -/
def maxDigits : Nat := 4300

/-- The value of a decimal digit. -/
def digitValue (c : Char) : Nat := c.toNat - '0'.toNat

/-- The value of a run of digits. -/
def digitsValue (cs : List Char) : Nat := cs.foldl (fun n c => 10 * n + digitValue c) 0

/-! ## §1. The plain form. -/

/-- Whether a character is a digit other than zero. -/
def isNonzeroDigit (c : Char) : Bool := c.isDigit && c != '0'

/-- Goes on after a leading zero; `last` is the zero or underscore before the rest. -/
def dropZerosAfter (last : Char) : List Char → Option (List Char)
  | [] => some [last]
  | c :: rest =>
    if c == '0' || c == '_' then dropZerosAfter c rest
    else if isNonzeroDigit c || c == '-' then some (c :: rest)
    else if c == '.' then some (last :: c :: rest)
    else none

/-- The text without leading zeros; it has to start with a digit. -/
def dropLeadingZeros : List Char → Option (List Char)
  | [] => none
  | c :: rest =>
    if c == '0' then dropZerosAfter c rest
    else if isNonzeroDigit c then some (c :: rest)
    else none

/-- The text up to its first point, if nothing but zeros follows there; else the whole text. -/
def cutZeroFraction (cs : List Char) : List Char :=
  match cs.dropWhile (· != '.') with
  | _ :: c :: rest => if (c :: rest).all (· == '0') then cs.takeWhile (· != '.') else cs
  | _ => cs

/-- Whether every underscore stands alone after a first and before a last other character. -/
def separatorsFit : List Char → Bool
  | [] => true
  | [c] => c != '_'
  | c :: d :: rest => !(c == '_' && d == '_') && separatorsFit (d :: rest)

/-- The text without its underscores, if they stand where they may; else the whole text. -/
def dropSeparators (cs : List Char) : List Char :=
  if cs.head? != some '_' && separatorsFit cs then cs.filter (· != '_') else cs

/-- The plain form of a text without sign. -/
def plainForm (cs : List Char) : Option (List Char) :=
  (dropLeadingZeros cs).map fun rest => dropSeparators (cutZeroFraction rest)

/-! ## §2. Numerals. -/

/-- The value of a numeral without sign. -/
def readNumeral (cs : List Char) : Except IntegerFault Nat :=
  let digits := cs.takeWhile Char.isDigit
  if digits.head? == some '0' then if cs.length = 1 then .ok 0 else .error .malformed
  else if maxDigits < digits.length then .error .tooLong
  else if digits.isEmpty || digits.length != cs.length then .error .malformed
  else .ok (digitsValue digits)

/-- The value of a numeral with at most one minus sign. -/
def readSigned : List Char → Except IntegerFault Int
  | '-' :: cs => (readNumeral cs).map fun n => -Int.ofNat n
  | cs => (readNumeral cs).map Int.ofNat

/-- The integer that a text stands for, or why it stands for none. -/
def readInteger (s : String) : Except IntegerFault Int :=
  let (sign, body) := match trimBoth isWhiteSpace s.toList with
    | '-' :: cs => (['-'], cs)
    | '+' :: cs => ([], cs)
    | cs => ([], cs)
  match plainForm body with
  | some plain => readSigned (sign ++ plain)
  | none => .error .malformed

end Gherkin.Text
