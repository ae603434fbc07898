/-
  Gherkin.Json.Basic
  ──────────────────
  **PLAIN DATA.**

  `Json` is the data that documents, tokens and events are read from and
  written to.  Integers and numbers with a decimal point are different values.
  An object keeps its members in order; `member?` finds the one with a key.
-/
import Gherkin.Decimal

namespace Gherkin

/-- A value of plain data. -/
inductive Json where
  | null
  | bool (value : Bool)
  | int (value : Int)
  | decimal (value : Decimal)
  | text (value : String)
  | array (items : List Json)
  | object (members : List (String × Json))
  deriving Inhabited

namespace Json

/-- The value under a key, if the data is an object that has the key. -/
def member? (key : String) : Json → Option Json
  | .object members => members.lookup key
  | _ => none

/-- The members with the value of a key replaced, or added at the end. -/
def setMember (key : String) (value : Json) : List (String × Json) → List (String × Json)
  | [] => [(key, value)]
  | (k, v) :: rest => if k = key then (k, value) :: rest else (k, v) :: setMember key value rest

/-- The members with every key once, in order of first appearance, under its last value. -/
def distinctMembers (members : List (String × Json)) : List (String × Json) :=
  members.foldl (fun seen m => setMember m.1 m.2 seen) []

/-- The text of an optional text. -/
def ofText? : Option String → Json
  | none => .null
  | some s => .text s

end Json

end Gherkin
