/-
  Gherkin.Proofs.Tree
  ───────────────────
  **PARSE TREES AND THEIR WALKS.**

  A tree is a token or a rule with trees below it; any rule type may stand
  anywhere.  `Forest.events` is the depth-first walk that a parser reports,
  `Forest.tokens` are the leaves in the same order.

  `Forest.induction` is the induction that nearly all proofs on forests use:
  a forest is empty, starts with a token, or starts with a rule.
-/
import Gherkin.Event
import Gherkin.Proofs.Columns

namespace Gherkin

/-! ## §1. Trees and forests. -/

/-- A token, or a rule with the trees below it. -/
inductive Tree where
  | leaf (token : Token)
  | rule (type : RuleType) (children : List Tree)

/-- Trees side by side. -/
abbrev Forest : Type := List Tree

/-- The category a tree is filed under. -/
def Tree.category : Tree → RuleType
  | .leaf t => t.category
  | .rule type _ => type

@[elab_as_elim]
theorem Forest.induction {motive : Forest → Prop} (nil : motive [])
    (leaf : ∀ t rest, motive rest → motive (.leaf t :: rest))
    (rule : ∀ type children rest, motive children → motive rest →
      motive (.rule type children :: rest)) : ∀ f, motive f
  | [] => nil
  | .leaf t :: rest => leaf t rest (induction nil leaf rule rest)
  | .rule type children :: rest =>
      rule type children rest (induction nil leaf rule children) (induction nil leaf rule rest)

/-! ## §2. Walks. -/

mutual

/-- The events of a tree: a token, or the rule's opening, its children and its closing. -/
def Tree.events : Tree → List Event
  | .leaf t => [.leaf t none]
  | .rule type children =>
    .opening type none :: (Forest.events children ++ [.closing type none])

/-- The events of trees side by side. -/
def Forest.events : Forest → List Event
  | [] => []
  | t :: rest => t.events ++ Forest.events rest

end

mutual

/-- The tokens of a tree, in the order of its walk. -/
def Tree.tokens : Tree → List Token
  | .leaf t => [t]
  | .rule _ children => Forest.tokens children

/-- The tokens of trees side by side. -/
def Forest.tokens : Forest → List Token
  | [] => []
  | t :: rest => t.tokens ++ Forest.tokens rest

end

/-- The comment that a token is. -/
def Token.comment? (t : Token) : Option Comment :=
  if t.type = .comment then some ⟨t.location, t.text⟩ else none

namespace Forest

/-- The comments of a forest, at any depth. -/
def comments (f : Forest) : List Comment := f.tokens.filterMap Token.comment?

/-- The tokens of one type that stand directly in a forest. -/
def direct (k : TokenType) (f : Forest) : List Token :=
  f.filterMap fun
    | .leaf t => if t.type = k then some t else none
    | .rule _ _ => none

@[simp] theorem events_leaf (t : Token) (rest : Forest) :
    events (.leaf t :: rest) = .leaf t none :: events rest := rfl

@[simp] theorem events_rule (type : RuleType) (children rest : Forest) :
    events (.rule type children :: rest)
      = .opening type none :: (events children ++ .closing type none :: events rest) := by
  show .opening type none :: (events children ++ [.closing type none]) ++ events rest = _
  simp

@[simp] theorem tokens_nil : tokens [] = [] := rfl

@[simp] theorem tokens_leaf (t : Token) (rest : Forest) :
    tokens (.leaf t :: rest) = t :: tokens rest := rfl

@[simp] theorem tokens_rule (type : RuleType) (children rest : Forest) :
    tokens (.rule type children :: rest) = tokens children ++ tokens rest := rfl

@[simp] theorem comments_nil : comments [] = [] := rfl

theorem comments_leaf (t : Token) (rest : Forest) :
    comments (.leaf t :: rest) = t.comment?.toList ++ comments rest := by
  unfold comments
  rw [tokens_leaf, List.filterMap_cons]
  cases t.comment? <;> rfl

@[simp] theorem comments_rule (type : RuleType) (children rest : Forest) :
    comments (.rule type children :: rest) = comments children ++ comments rest :=
  List.filterMap_append

@[simp] theorem tokens_append (f g : Forest) : tokens (f ++ g) = tokens f ++ tokens g := by
  induction f with
  | nil => rfl
  | cons t rest ih =>
      show t.tokens ++ tokens (rest ++ g) = t.tokens ++ tokens rest ++ tokens g
      rw [ih, List.append_assoc]

@[simp] theorem comments_append (f g : Forest) :
    comments (f ++ g) = comments f ++ comments g := by
  unfold comments
  rw [tokens_append, List.filterMap_append]

theorem direct_leaf (k : TokenType) (t : Token) (rest : Forest) :
    direct k (.leaf t :: rest) = (if t.type = k then [t] else []) ++ direct k rest := by
  unfold direct
  by_cases h : t.type = k <;> simp [h]

@[simp] theorem direct_rule (k : TokenType) (type : RuleType) (children rest : Forest) :
    direct k (.rule type children :: rest) = direct k rest := rfl

end Forest

end Gherkin
