/-
  Gherkin.Json.Reader
  ───────────────────
  **READING PLAIN DATA FROM ITS TEXT.**

  `parse?` reads one value with white space around it, and refuses anything
  else.  A number without fraction and exponent is an integer of any size,
  any other number a decimal.  Of two members with one key the last counts.
  Escapes in strings may name a character above U+FFFF by its two surrogates.

  The readers for values, items and members call each other at most twice per
  character, so the fuel that `parse?` gives them is never used up.
-/
import Gherkin.Json.Basic
import Gherkin.Text.Integer

namespace Gherkin.Json

/-! ## §1. Characters. -/

/-- The characters allowed between two tokens. -/
def isSpace (c : Char) : Bool := c == ' ' || c == '\t' || c == '\n' || c == '\r'

/-- The text without the white space at its start. -/
def skipSpace (cs : List Char) : List Char := cs.dropWhile isSpace

/-- The value of a hexadecimal digit. -/
def hexValue? (c : Char) : Option Nat :=
  if c.isDigit then some (c.toNat - '0'.toNat)
  else if 'a' ≤ c ∧ c ≤ 'f' then some (c.toNat - 'a'.toNat + 10)
  else if 'A' ≤ c ∧ c ≤ 'F' then some (c.toNat - 'A'.toNat + 10)
  else none

/-- The value of four hexadecimal digits. -/
def hexUnit? (a b c d : Char) : Option Nat := do
  let a ← hexValue? a
  let b ← hexValue? b
  let c ← hexValue? c
  let d ← hexValue? d
  return ((a * 16 + b) * 16 + c) * 16 + d

/-- The character with a code, unless the code is a surrogate or too large. -/
def charOfCode? (n : Nat) : Option Char :=
  if n.isValidChar then some (Char.ofNat n) else none

/-- The character that two surrogates name. -/
def charOfSurrogates? (high low : Nat) : Option Char :=
  if 0xD800 ≤ high ∧ high < 0xDC00 ∧ 0xDC00 ≤ low ∧ low < 0xE000 then
    charOfCode? (0x10000 + (high - 0xD800) * 0x400 + (low - 0xDC00))
  else none

/-- The character that a one-letter escape names. -/
def escaped? : Char → Option Char
  | '"' => some '"'
  | '\\' => some '\\'
  | '/' => some '/'
  | 'b' => some '\x08'
  | 'f' => some '\x0c'
  | 'n' => some '\n'
  | 'r' => some '\r'
  | 't' => some '\t'
  | _ => none

/-! ## §2. Strings and numbers. -/

/-- The rest of a string after its opening mark; `seen` holds its characters in reverse. -/
def readString (seen : List Char) : List Char → Option (String × List Char)
  | '"' :: rest => some (String.ofList seen.reverse, rest)
  | '\\' :: 'u' :: a :: b :: c :: d :: '\\' :: 'u' :: e :: f :: g :: h :: rest => do
    let unit ← hexUnit? a b c d
    match charOfCode? unit with
    | some x => readString (x :: seen) ('\\' :: 'u' :: e :: f :: g :: h :: rest)
    | none => readString ((← charOfSurrogates? unit (← hexUnit? e f g h)) :: seen) rest
  | '\\' :: 'u' :: a :: b :: c :: d :: rest => do
    readString ((← charOfCode? (← hexUnit? a b c d)) :: seen) rest
  | '\\' :: c :: rest => do readString ((← escaped? c) :: seen) rest
  | c :: rest => if c.toNat < 0x20 then none else readString (c :: seen) rest
  | [] => none

/-- The digits at the start, at least one, and the rest. -/
def readDigitRun (cs : List Char) : Option (List Char × List Char) :=
  let digits := cs.takeWhile Char.isDigit
  if digits.isEmpty then none else some (digits, cs.dropWhile Char.isDigit)

/-- The digits of a fraction, none if there is no point. -/
def readFraction : List Char → Option (List Char × List Char)
  | '.' :: rest => readDigitRun rest
  | rest => some ([], rest)

/-- An exponent after its mark. -/
def readSignedExponent : List Char → Option (Int × List Char)
  | '-' :: rest => (readDigitRun rest).map fun (ds, r) => (-Int.ofNat (Text.digitsValue ds), r)
  | '+' :: rest => (readDigitRun rest).map fun (ds, r) => (Int.ofNat (Text.digitsValue ds), r)
  | rest => (readDigitRun rest).map fun (ds, r) => (Int.ofNat (Text.digitsValue ds), r)

/-- An exponent, if there is one. -/
def readExponent : List Char → Option (Option Int × List Char)
  | 'e' :: rest => (readSignedExponent rest).map fun (e, r) => (some e, r)
  | 'E' :: rest => (readSignedExponent rest).map fun (e, r) => (some e, r)
  | rest => some (none, rest)

/-- A number without its sign. -/
def readMagnitude (negative : Bool) (cs : List Char) : Option (Json × List Char) := do
  let (whole, r1) ← readDigitRun cs
  guard (whole.length = 1 ∨ whole.head? ≠ some '0')
  let (places, r2) ← readFraction r1
  let (exponent, r3) ← readExponent r2
  let n := Text.digitsValue (whole ++ places)
  if places.isEmpty && exponent.isNone then
    return (.int (if negative then -Int.ofNat n else Int.ofNat n), r3)
  else
    return (.decimal ⟨negative, n, exponent.getD 0 - places.length⟩, r3)

/-- A number. -/
def readNumber : List Char → Option (Json × List Char)
  | '-' :: rest => readMagnitude true rest
  | rest => readMagnitude false rest

/-! ## §3. Values. -/

mutual

/-- A value at the start of a text. -/
def readValue : Nat → List Char → Option (Json × List Char)
  | 0, _ => none
  | fuel + 1, cs =>
    match skipSpace cs with
    | 'n' :: 'u' :: 'l' :: 'l' :: rest => some (.null, rest)
    | 't' :: 'r' :: 'u' :: 'e' :: rest => some (.bool true, rest)
    | 'f' :: 'a' :: 'l' :: 's' :: 'e' :: rest => some (.bool false, rest)
    | '"' :: rest => (readString [] rest).map fun (s, r) => (.text s, r)
    | '[' :: rest =>
      match skipSpace rest with
      | ']' :: r => some (.array [], r)
      | r => (readItems fuel r).map fun (items, r) => (.array items, r)
    | '\x7b' :: rest =>
      match skipSpace rest with
      | '\x7d' :: r => some (.object [], r)
      | r => (readMembers fuel r).map fun (members, r) => (.object (distinctMembers members), r)
    | rest => readNumber rest

/-- The items of an array, at least one, and its closing bracket. -/
def readItems : Nat → List Char → Option (List Json × List Char)
  | 0, _ => none
  | fuel + 1, cs =>
    match readValue fuel cs with
    | none => none
    | some (item, rest) =>
      match skipSpace rest with
      | ',' :: r => (readItems fuel r).map fun (items, r) => (item :: items, r)
      | ']' :: r => some ([item], r)
      | _ => none

/-- The members of an object, at least one, and its closing brace. -/
def readMembers : Nat → List Char → Option (List (String × Json) × List Char)
  | 0, _ => none
  | fuel + 1, cs =>
    match skipSpace cs with
    | '"' :: rest =>
      match readString [] rest with
      | none => none
      | some (key, rest) =>
        match skipSpace rest with
        | ':' :: rest =>
          match readValue fuel rest with
          | none => none
          | some (value, rest) =>
            match skipSpace rest with
            | ',' :: r => (readMembers fuel r).map fun (ms, r) => ((key, value) :: ms, r)
            | '\x7d' :: r => some ([(key, value)], r)
            | _ => none
        | _ => none
    | _ => none

end

/-- The value that a text stands for. -/
def parse? (s : String) : Option Json :=
  let cs := s.toList
  match readValue (2 * cs.length + 2) cs with
  | some (value, rest) => if (skipSpace rest).isEmpty then some value else none
  | none => none

end Gherkin.Json
