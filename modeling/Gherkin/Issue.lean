/-
  Gherkin.Issue
  ─────────────
  **WHAT CAN BE WRONG WITH DATA.**

  An `Issue` is a cause at a place in the data.  `Cause.code` and
  `Cause.message` are the words for a cause; a `Rejection` names the class
  whose instance could not be made and lists all issues found.
-/
import Gherkin.Json.Basic

namespace Gherkin

/-- One step of the way from a value to a part of it. -/
inductive PathStep where
  /-- The value under a key. -/
  | key (name : String)
  /-- The item at an index, counted from zero. -/
  | index (i : Nat)
  /-- The same value, read as the alternative that its tag names. -/
  | tag (name : String)
  deriving DecidableEq

/-- How a closed list of names is presented in messages. -/
inductive ChoiceForm where
  | enumeration
  | literal
  deriving DecidableEq

/-- How a list is presented in messages. -/
inductive ListForm where
  | list
  | tuple
  deriving DecidableEq

/-- How a record is presented in messages. -/
inductive RecordForm where
  | model
  | entry
  deriving DecidableEq

/-- Why a value is refused. -/
inductive Cause where
  | missing
  | notInteger
  | notIntegerText
  | fractional
  /-- An integer that is too large for the way it is written. -/
  | oversized
  /-- A number with a point that is beyond all finite binary numbers. -/
  | infinite
  | belowZero
  | aboveMaximum
  | notText
  | notMember (form : ChoiceForm) (expected : List String)
  | notList (form : ListForm)
  | notRecord (form : RecordForm) (name : String)
  | notTagged
  | untagged
  | unknownTag (found : String) (expected : List String)
  /-- An event lacks what its kind needs. -/
  | lacking (kind need : String)
  deriving DecidableEq

/-- The greatest line or column number. -/
def maxPosition : Nat := 4294967295

namespace Cause

/-- A name in single quotes. -/
def inQuotes (s : String) : String := "'" ++ s ++ "'"

/-- Names in single quotes, commas between them and "or" before the last. -/
def alternatives : List String → String
  | [] => ""
  | [a] => inQuotes a
  | [a, b] => inQuotes a ++ " or " ++ inQuotes b
  | a :: rest => inQuotes a ++ ", " ++ alternatives rest

/-- The short word for a cause. -/
def code : Cause → String
  | .missing => "missing"
  | .notInteger => "int_type"
  | .notIntegerText => "int_parsing"
  | .fractional => "int_from_float"
  | .oversized => "int_parsing_size"
  | .infinite => "finite_number"
  | .belowZero => "greater_than_equal"
  | .aboveMaximum => "less_than_equal"
  | .notText => "string_type"
  | .notMember .enumeration _ => "enum"
  | .notMember .literal _ => "literal_error"
  | .notList .list => "list_type"
  | .notList .tuple => "tuple_type"
  | .notRecord .model _ => "model_type"
  | .notRecord .entry _ => "dataclass_type"
  | .notTagged => "model_attributes_type"
  | .untagged => "union_tag_not_found"
  | .unknownTag _ _ => "union_tag_invalid"
  | .lacking _ _ => "value_error"

/-- The sentence for a cause. -/
def message : Cause → String
  | .missing => "Field required"
  | .notInteger => "Input should be a valid integer"
  | .notIntegerText =>
    "Input should be a valid integer, unable to parse string as an integer"
  | .fractional => "Input should be a valid integer, got a number with a fractional part"
  | .oversized => "Unable to parse input string as an integer, exceeded maximum size"
  | .infinite => "Input should be a finite number"
  | .belowZero => "Input should be greater than or equal to 0"
  | .aboveMaximum => "Input should be less than or equal to " ++ toString maxPosition
  | .notText => "Input should be a valid string"
  | .notMember _ expected => "Input should be " ++ alternatives expected
  | .notList .list => "Input should be a valid list"
  | .notList .tuple => "Input should be a valid tuple"
  | .notRecord .model name => "Input should be a valid dictionary or instance of " ++ name
  | .notRecord .entry name => "Input should be a dictionary or an instance of " ++ name
  | .notTagged => "Input should be a valid dictionary or object to extract fields from"
  | .untagged => "Unable to extract tag using discriminator 'kind'"
  | .unknownTag found expected =>
    "Input tag " ++ inQuotes found ++ " found using 'kind' does not match any of the expected tags: " ++
      ", ".intercalate (expected.map inQuotes)
  | .lacking kind need => "Value error, a " ++ inQuotes kind ++ " event needs a " ++ need

end Cause

/-- A cause at a place in the data. -/
structure Issue where
  path : List PathStep
  cause : Cause
  deriving DecidableEq

namespace Issue

/-- An issue with the value itself. -/
def here (cause : Cause) : Issue := ⟨[], cause⟩

/-- The issue seen from one step further out. -/
def under (step : PathStep) (i : Issue) : Issue := ⟨step :: i.path, i.cause⟩

end Issue

/-- All issues found while an instance of a class was made. -/
structure Rejection where
  subject : String
  issues : List Issue
  deriving DecidableEq

/-- A value made from data, or the issues with the data. -/
abbrev Checked (α : Type) : Type := Except (List Issue) α

namespace Checked

/-- Refuses a value for one cause. -/
def refuse {α : Type} (cause : Cause) : Checked α := .error [.here cause]

/-- The result seen from one step further out. -/
def under {α : Type} (step : PathStep) : Checked α → Checked α
  | .ok a => .ok a
  | .error issues => .error (issues.map (Issue.under step))

/-- The result with its value changed. -/
def map {α β : Type} (f : α → β) : Checked α → Checked β
  | .ok a => .ok (f a)
  | .error issues => .error issues

/-- Two results together; the issues of both are kept, the first ones first. -/
def pair {α β : Type} : Checked α → Checked β → Checked (α × β)
  | .ok a, .ok b => .ok (a, b)
  | .ok _, .error issues => .error issues
  | .error issues, .ok _ => .error issues
  | .error first, .error second => .error (first ++ second)

/-- The results for the items of a list that starts at index `i`; all issues are kept. -/
def collect {α β : Type} (f : α → Checked β) (i : Nat) : List α → Checked (List β)
  | [] => .ok []
  | a :: rest => map (fun p => p.1 :: p.2) (pair (under (.index i) (f a)) (collect f (i + 1) rest))

/-- The result as an outcome for a class of instances. -/
def about {α : Type} (subject : String) : Checked α → Except Rejection α
  | .ok a => .ok a
  | .error issues => .error ⟨subject, issues⟩

/-- A list whose items are all read back as what they were made from. -/
theorem collect_map {α β : Type} {read : β → Checked α} {wrap : α → β}
    (h : ∀ a, read (wrap a) = .ok a) (as : List α) :
    ∀ i, collect read i (as.map wrap) = .ok as := by
  induction as with
  | nil => intro i; rfl
  | cons a rest ih =>
      intro i
      show map _ (pair (under _ (read (wrap a))) (collect read (i + 1) (rest.map wrap))) = _
      rw [h a, ih (i + 1)]
      rfl

end Checked

end Gherkin
