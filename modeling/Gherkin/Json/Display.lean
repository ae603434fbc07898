/-
  Gherkin.Json.Display
  ────────────────────
  **PLAIN DATA AS MESSAGES SHOW IT.**

  `display` is the text that a value leaves in a message: a text stands for
  itself, a number for its digits.  Texts inside arrays and objects are quoted
  (`shown`).
-/
import Gherkin.Json.Basic
import Gherkin.Text.Quoted

namespace Gherkin.Json

mutual

/-- A value as it is shown inside an array or object: texts in quotes. -/
def shown : Json → String
  | .null => "None"
  | .bool b => if b then "True" else "False"
  | .int n => toString n
  | .decimal d => d.text
  | .text s => Text.quoted s
  | .array items => "[" ++ ", ".intercalate (shownItems items) ++ "]"
  | .object members => "\x7b" ++ ", ".intercalate (shownMembers members) ++ "\x7d"
termination_by structural j => j

/-- The items of an array as they are shown. -/
def shownItems : List Json → List String
  | [] => []
  | item :: rest => item.shown :: shownItems rest
termination_by structural items => items

/-- The members of an object as they are shown. -/
def shownMembers : List (String × Json) → List String
  | [] => []
  | (key, value) :: rest => (Text.quoted key ++ ": " ++ value.shown) :: shownMembers rest
termination_by structural members => members

end

/-- The text of a value in a message: a text is taken as it is. -/
def display : Json → String
  | .text s => s
  | j => j.shown

end Gherkin.Json
