/-
  Gherkin.Node
  ────────────
  **NODES: RULES WITH THEIR CHILDREN.**

  A `Node` is a rule that is open or has just been closed, with the children
  filed so far.  It is read by category: all values, the first one, or the
  tokens.  A category may hold a token in one place of the grammar and a
  nested rule in another, so `token?` reads a first value that is no token as
  none at all.

  `items_add` says what one more value does to the values of a category; the
  other reads are reads of those.
-/
import Gherkin.Value

namespace Gherkin

/-- A rule with the children filed under it. -/
structure Node where
  type : RuleType
  children : Grouped RuleType Value

/-- The node as a value. -/
def Value.ofNode (n : Node) : Value := .node n.type n.children

/-- The node that a value is. -/
def Value.node? : Value → Option Node
  | .node type children => some ⟨type, children⟩
  | _ => none

theorem Value.node?_eq_some_iff {v : Value} {n : Node} : v.node? = some n ↔ v = .ofNode n := by
  constructor
  · intro h
    cases v with
    | node type children =>
        cases h
        rfl
    | _ => cases h
  · rintro rfl
    rfl

namespace Node

/-- A rule without children. -/
def empty (type : RuleType) : Node := ⟨type, []⟩

/-- The node with one more value under a category. -/
def add (category : RuleType) (value : Value) (n : Node) : Node :=
  { n with children := n.children.add category value }

/-- All values under a category, in order of arrival. -/
def items (category : RuleType) (n : Node) : List Value := n.children.items category

/-- The first value under a category. -/
def first? (category : RuleType) (n : Node) : Option Value := (n.items category).head?

/-- The first value under a category, whatever it is, or else the value given in its place. -/
def single (category : RuleType) (fallback : Value := .null) (n : Node) : Value :=
  (n.first? category).getD fallback

/-- The first value under the leaf category of a token type, if it is a token. -/
def token? (type : TokenType) (n : Node) : Option Token :=
  (n.first? (.leaf type)).bind Value.token?

/-- The tokens under the leaf category of a token type. -/
def tokens (type : TokenType) (n : Node) : List Token :=
  (n.items (.leaf type)).filterMap Value.token?

/-- The first value under a category, if it is a node. -/
def node? (category : RuleType) (n : Node) : Option Node :=
  (n.first? category).bind Value.node?

/-- A category as a node's description shows it. -/
def describeCategory (r : RuleType) : String :=
  "<RuleType." ++ r.constantName ++ ": " ++ Text.quoted r.name ++ ">"

/-- The rule type and the categories in order of first arrival. -/
def describe (n : Node) : String :=
  "AstNode(" ++ n.type.name ++ ", [" ++
    ", ".intercalate (n.children.keys.map describeCategory) ++ "])"

@[simp] theorem type_add (c : RuleType) (v : Value) (n : Node) : (n.add c v).type = n.type := rfl

theorem items_add (n : Node) (c : RuleType) (v : Value) (k : RuleType) :
    (n.add c v).items k = n.items k ++ (if c = k then [v] else []) :=
  Grouped.items_add n.children c v k

theorem mem_tokens {n : Node} {k : TokenType} {t : Token} :
    t ∈ n.tokens k ↔ .token t ∈ n.items (.leaf k) := by
  unfold tokens
  simp only [List.mem_filterMap, Value.token?_eq_some_iff, exists_eq_right]

theorem token?_eq_some_iff {n : Node} {k : TokenType} {t : Token} :
    n.token? k = some t ↔ n.first? (.leaf k) = some (.token t) := by
  unfold token?
  simp only [Option.bind_eq_some_iff, Value.token?_eq_some_iff, exists_eq_right]

theorem node?_eq_some_iff {n inner : Node} {c : RuleType} :
    n.node? c = some inner ↔ n.first? c = some (.ofNode inner) := by
  unfold node?
  simp only [Option.bind_eq_some_iff, Value.node?_eq_some_iff, exists_eq_right]

end Node

end Gherkin
