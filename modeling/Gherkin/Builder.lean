/-
  Gherkin.Builder
  ───────────────
  **BUILDING THE DOCUMENT RULE BY RULE.**

  A builder holds the open rules as nodes, the innermost first; the last one
  is the root of the tree.  Tokens and closed rules are filed on the innermost
  node, comments are kept aside until a document closes.

  Closing a rule takes its node away, assembles it and files the result on the
  next node.  A ragged table is reported, but what was kept of it is filed all
  the same; when a value is rejected nothing is filed.
-/
import Gherkin.Assembly
import Gherkin.Diagnostic

namespace Gherkin

/-- An operation that found too few open nodes. -/
inductive Underflow where
  /-- There is no innermost node. -/
  | noCurrentNode
  /-- There is no node to close. -/
  | nothingToClose
  deriving DecidableEq

/-- The words for an underflow. -/
def Underflow.message : Underflow → String
  | .noCurrentNode => "list index out of range"
  | .nothingToClose => "pop from empty list"

/-- What an operation of the builder can report. -/
inductive BuilderFault where
  | ragged (table : RaggedTable)
  | rejected (rejection : Rejection)
  | underflow (cause : Underflow)

/-- A document under construction. -/
structure Builder where
  /-- The name of the file to be built next. -/
  uri : String
  /-- The name of the file being built. -/
  documentUri : String
  /-- The comments so far. -/
  comments : List Comment
  /-- The open rules, the innermost first. -/
  stack : List Node

namespace Builder

/-- The builder at the start of the file that its `uri` names. -/
def reset (b : Builder) : Builder :=
  { uri := b.uri, documentUri := b.uri, comments := [], stack := [.empty .root] }

/-- A builder for a file. -/
def new (uri : String) : Builder := reset ⟨uri, uri, [], []⟩

/-- The innermost open rule. -/
def current? (b : Builder) : Option Node := b.stack.head?

/-- The number of open rules, the root included. -/
def depth (b : Builder) : Nat := b.stack.length

/-- What documents take from outside the tree. -/
def source (b : Builder) : Source :=
  ⟨b.documentUri, b.comments.map fun c => .element (.comment c)⟩

/-- Files a value on the innermost open rule. -/
def file (category : RuleType) (value : Value) (b : Builder) : Except Underflow Builder :=
  match b.stack with
  | [] => .error .noCurrentNode
  | node :: outer => .ok { b with stack := node.add category value :: outer }

/-- Takes a token: a comment is kept aside, any other is filed under its category. -/
def accept (t : Token) (b : Builder) : Except Underflow Builder :=
  if t.type = .comment then .ok { b with comments := b.comments ++ [⟨t.location, t.text⟩] }
  else b.file t.category (.token t)

/-- Opens a rule. -/
def openRule (type : RuleType) (b : Builder) : Builder :=
  { b with stack := .empty type :: b.stack }

/-- Closes the innermost rule: the value filed for it or the fault, and the builder after that. -/
def closeRule (b : Builder) : Except BuilderFault Value × Builder :=
  match b.stack with
  | [] => (.error (.underflow .nothingToClose), b)
  | node :: outer =>
    let below := { b with stack := outer }
    match node.assemble b.source with
    | .ok value =>
      match below.file node.type value with
      | .ok after => (.ok value, after)
      | .error cause => (.error (.underflow cause), below)
    | .error (.ragged location kept) =>
      match below.file node.type kept with
      | .ok after => (.error (.ragged ⟨location, kept⟩), after)
      | .error cause => (.error (.underflow cause), below)
    | .error (.rejected rejection) => (.error (.rejected rejection), below)

/-- The first document filed on the innermost open rule. -/
def document? (b : Builder) : Except Underflow (Option Document) :=
  match b.stack with
  | [] => .error .noCurrentNode
  | node :: _ => .ok ((node.first? .gherkinDocument).bind Value.document?)

/-- A reset forgets everything but the name of the file. -/
theorem reset_eq_new (b : Builder) : b.reset = new b.uri := rfl

@[simp] theorem stack_openRule (type : RuleType) (b : Builder) :
    (b.openRule type).stack = .empty type :: b.stack := rfl

theorem accept_comment {t : Token} (h : t.type = .comment) (b : Builder) :
    b.accept t = .ok { b with comments := b.comments ++ [⟨t.location, t.text⟩] } := by
  rw [accept, if_pos h]

theorem accept_of_ne {t : Token} (h : t.type ≠ .comment) (b : Builder) :
    b.accept t = b.file t.category (.token t) := by
  rw [accept, if_neg h]

end Builder

end Gherkin
