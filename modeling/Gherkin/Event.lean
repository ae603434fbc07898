/-
  Gherkin.Event
  ─────────────
  **WHAT THE PARSER OF A FEATURE FILE REPORTS.**

  A rule opens, a rule closes, or a token is read.  An event may also carry
  the part that its kind does not need; it has no effect on the tree.
-/
import Gherkin.Token

namespace Gherkin

/-- One report of the parser. -/
inductive Event where
  | opening (type : RuleType) (spare : Option Token)
  | closing (type : RuleType) (spare : Option Token)
  | leaf (token : Token) (spare : Option RuleType)
  deriving DecidableEq

/-- The kind of an event. -/
inductive EventKind where
  | opening
  | closing
  | leaf
  deriving DecidableEq

namespace EventKind

/-- All kinds, in their fixed order. -/
def all : List EventKind := [.opening, .closing, .leaf]

/-- The name of a kind in data. -/
def name : EventKind → String
  | .opening => "start"
  | .closing => "end"
  | .leaf => "token"

end EventKind

namespace Event

/-- The kind of an event, with the rule type and the token it carries. -/
def parts : Event → EventKind × Option RuleType × Option Token
  | .opening type spare => (.opening, some type, spare)
  | .closing type spare => (.closing, some type, spare)
  | .leaf token spare => (.leaf, spare, some token)

/-- The event with the given parts; a token event needs a token and the others a rule type. -/
def ofParts : EventKind × Option RuleType × Option Token → Except Cause Event
  | (.leaf, spare, some token) => .ok (.leaf token spare)
  | (.leaf, _, none) => .error (.lacking EventKind.leaf.name "token")
  | (.opening, some type, spare) => .ok (.opening type spare)
  | (.closing, some type, spare) => .ok (.closing type spare)
  | (kind, none, _) => .error (.lacking kind.name "rule_type")

theorem ofParts_parts (e : Event) : ofParts e.parts = .ok e := by cases e <;> rfl

end Event

end Gherkin
