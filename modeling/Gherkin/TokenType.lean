/-
  Gherkin.TokenType
  ─────────────────
  **THE TYPES OF TOKENS.**

  A token stands for one line of a feature file; its type says which.  `name`
  is the spelling used in data, and `TokenType.mem_all` says that the list
  `all` misses none.
-/
import Gherkin.Text.Case

namespace Gherkin

/-- What kind of line a token stands for. -/
inductive TokenType where
  | eof | empty | comment | tagLine | featureLine | ruleLine | backgroundLine | scenarioLine
  | examplesLine | stepLine | docStringSeparator | tableRow | language | other
  deriving DecidableEq

namespace TokenType

/-- All token types, in their fixed order. -/
def all : List TokenType :=
  [.eof, .empty, .comment, .tagLine, .featureLine, .ruleLine, .backgroundLine, .scenarioLine,
    .examplesLine, .stepLine, .docStringSeparator, .tableRow, .language, .other]

/-- The name of a token type in data. -/
def name : TokenType → String
  | .eof => "EOF"
  | .empty => "Empty"
  | .comment => "Comment"
  | .tagLine => "TagLine"
  | .featureLine => "FeatureLine"
  | .ruleLine => "RuleLine"
  | .backgroundLine => "BackgroundLine"
  | .scenarioLine => "ScenarioLine"
  | .examplesLine => "ExamplesLine"
  | .stepLine => "StepLine"
  | .docStringSeparator => "DocStringSeparator"
  | .tableRow => "TableRow"
  | .language => "Language"
  | .other => "Other"

/-- The name in capitals. -/
def constantName (t : TokenType) : String := Text.constantCase t.name

/-- The token type with a name. -/
def ofName? (s : String) : Option TokenType := all.find? fun t => t.name = s

theorem mem_all (t : TokenType) : t ∈ all := by cases t <;> decide

theorem ofName?_name (t : TokenType) : ofName? t.name = some t := by cases t <;> decide

end TokenType

end Gherkin
