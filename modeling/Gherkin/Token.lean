/-
  Gherkin.Token
  ─────────────
  **TOKENS.**

  A token is one line of a feature file, already taken apart: its type, its
  place, its keyword and text, the cells or tags on it, and for a feature line
  the dialect it is written in.  An item's column is any integer; it has to be
  in range only when a cell or tag is made of the item.
-/
import Gherkin.Location
import Gherkin.RuleType

namespace Gherkin

/-- A cell of a table row or a tag of a tag line. -/
structure Item where
  column : Int
  text : String
  deriving DecidableEq

/-- A line of a feature file. -/
structure Token where
  type : TokenType
  location : Location
  keyword : String := ""
  text : String := ""
  items : List Item := []
  dialect : Option String := none
  deriving DecidableEq

namespace Token

/-- The category a token is filed under. -/
def category (t : Token) : RuleType := .leaf t.type

end Token

end Gherkin
