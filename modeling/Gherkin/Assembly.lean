/-
  Gherkin.Assembly
  ────────────────
  **FROM A CLOSED RULE TO WHAT IT STANDS FOR.**

  Nested rules close first, so the children of a closing node are already
  assembled.  For eleven productions `Node.assemble` makes an element, a list
  of rows or a text of the node; a node of any other rule type stays as it is
  and is opened by its parent, which reads the header, the scenario or the
  examples inside.

  A rule whose own line is missing stands for nothing.  Where a category is
  read only once, its first child decides.
-/
import Gherkin.Node
import Gherkin.Table
import Gherkin.Text.Lines

namespace Gherkin

/-! ## §1. Parts that several rules share. -/

namespace Node

/-- The tag for an item on a line. -/
def tagOfItem (line : UInt32) (i : Item) : Except Rejection Tag :=
  (Location.onLine line i.column).map fun l => ⟨l, i.text⟩

/-- The items of tag lines, each with its line. -/
def tagItems (tokens : List Token) : List (UInt32 × Item) :=
  tokens.flatMap fun t => t.items.map fun i => (t.location.line, i)

/-- The tags on the tag lines of the node's first `Tags` child. -/
def tags (n : Node) : Except Rejection (List Tag) :=
  match n.node? .tags with
  | some tagsNode => (tagItems (tagsNode.tokens .tagLine)).mapM fun (line, i) => tagOfItem line i
  | none => .ok []

/-- The steps of a node. -/
def steps (n : Node) : List Step := (n.items .step).filterMap Value.step?

/-- The examples sections of a node. -/
def examples (n : Node) : List Examples :=
  (n.items .examplesDefinition).filterMap Value.examples?

/-- The scenarios of a node. -/
def scenarios (n : Node) : List Scenario :=
  (n.items .scenarioDefinition).filterMap Value.scenario?

/-- The rules of a node. -/
def rules (n : Node) : List Rule := (n.items .rule).filterMap Value.rule?

/-- The description of a node: its first `Description` child, if that is a text. -/
def description (n : Node) : String :=
  match n.first? .description with
  | some v => v.textOrEmpty
  | none => ""

/-- The background of a node: its first `Background` child, if that is one. -/
def background? (n : Node) : Option Background :=
  (n.first? .background).bind Value.background?

end Node

/-- The text of description lines. -/
def descriptionText (tokens : List Token) : String := Text.paragraph (tokens.map Token.text)

/-! ## §2. Steps and their arguments. -/

/-- The doc string of a node with a separator line. -/
def DocString.ofNode? (n : Node) : Option DocString :=
  (n.token? .docStringSeparator).map fun separator =>
    { location := separator.location
      contentType := separator.text
      content := Text.joinLines ((n.tokens .other).map Token.text)
      delimiter := separator.keyword }

/-- The data table with the given rows, if there are any. -/
def DataTable.ofRows? : List TableRow → Option DataTable
  | [] => none
  | first :: rest => some ⟨first.location, first :: rest⟩

/-- The data table of a node with row lines. -/
def DataTable.ofNode (n : Node) : Except (Fault (Option DataTable)) (Option DataTable) :=
  match tableRows (n.tokens .tableRow) with
  | .ok rows => .ok (DataTable.ofRows? rows)
  | .error fault => .error (fault.map DataTable.ofRows?)

/-- The step of a node with a step line; a data table is preferred to a doc string. -/
def Step.ofNode? (n : Node) : Option Step :=
  (n.token? .stepLine).map fun line =>
    let dataTable := (n.first? .dataTable).bind Value.dataTable?
    let docString := (n.first? .docString).bind Value.docString?
    { location := line.location
      keyword := line.keyword
      text := line.text
      docString := if dataTable.isSome then none else docString
      dataTable }

/-! ## §3. Backgrounds, scenarios and examples. -/

/-- The background of a node with a background line. -/
def Background.ofNode? (n : Node) : Option Background :=
  (n.token? .backgroundLine).map fun line =>
    { location := line.location
      keyword := line.keyword
      name := line.text
      description := n.description
      steps := n.steps }

/-- The inner node of a definition together with the line that introduces it. -/
def Node.introduced? (category : RuleType) (type : TokenType) (n : Node) : Option (Node × Token) :=
  (n.node? category).bind fun inner => (inner.token? type).map fun line => (inner, line)

theorem Node.introduced?_eq_some_iff {n inner : Node} {c : RuleType} {k : TokenType}
    {line : Token} :
    n.introduced? c k = some (inner, line) ↔
      n.node? c = some inner ∧ inner.token? k = some line := by
  unfold introduced?
  rw [Option.bind_eq_some_iff]
  constructor
  · rintro ⟨m, hm, hline⟩
    obtain ⟨l, hl, hpair⟩ := Option.map_eq_some_iff.1 hline
    cases hpair
    exact ⟨hm, hl⟩
  · rintro ⟨hinner, hline⟩
    exact ⟨inner, hinner, Option.map_eq_some_iff.2 ⟨line, hline, rfl⟩⟩

/-- The scenario of a definition: the tags hang off the definition, the rest off the scenario. -/
def Scenario.ofNode (n : Node) : Except Rejection (Option Scenario) :=
  match n.introduced? .scenario .scenarioLine with
  | none => .ok none
  | some (inner, line) =>
    n.tags.map fun tags => some
      { location := line.location
        tags
        keyword := line.keyword
        name := line.text
        description := inner.description
        steps := inner.steps
        examples := inner.examples }

/-- The row that a value is. -/
def TableRow.ofValue : Value → Checked TableRow
  | .element (.tableRow r) => .ok r
  | _ => .refuse (.notRecord .model "TableRow")

/-- The header row that a value is, or none. -/
def TableRow.headerOfValue : Value → Checked (Option TableRow)
  | .null => .ok none
  | v => .map some (TableRow.ofValue v)

/-- The header and the body of an examples table. -/
def Examples.splitTable : Option Value → Checked (Option TableRow × List TableRow)
  | some (.list (header :: body)) =>
    .pair (.under (.key "table_header") (TableRow.headerOfValue header))
      (.under (.key "table_body") (.collect TableRow.ofValue 0 body))
  | _ => .ok (none, [])

/-- The examples section of a definition. -/
def Examples.ofNode (n : Node) : Except Rejection (Option Examples) :=
  match n.introduced? .examples .examplesLine with
  | none => .ok none
  | some (inner, line) => do
    let tags ← n.tags
    let (header, body) ← (Examples.splitTable (inner.first? .examplesTable)).about "Examples"
    return some
      { location := line.location
        tags
        keyword := line.keyword
        name := line.text
        description := inner.description
        header
        body }

/-! ## §4. Rules, features and documents. -/

/-- The rule of a node whose header has a rule line: a background first, then the scenarios. -/
def Rule.ofNode? (n : Node) : Option Rule :=
  (n.introduced? .ruleHeader .ruleLine).map fun (header, line) =>
    { location := line.location
      keyword := line.keyword
      name := line.text
      description := header.description
      children := n.background?.toList.map .background ++ n.scenarios.map .scenario }

/-- The feature of a node whose header has a feature line: a background, scenarios, rules. -/
def Feature.ofNode (n : Node) : Except Rejection (Option Feature) :=
  match n.introduced? .featureHeader .featureLine with
  | none => .ok none
  | some (header, line) =>
    header.tags.map fun tags => some
      { location := line.location
        tags
        language := line.dialect.getD ""
        keyword := line.keyword
        name := line.text
        description := header.description
        children := n.background?.toList.map .background ++ n.scenarios.map .scenario ++
          n.rules.map .rule }

/-- What a document takes from outside the tree: the name of its file and its comments. -/
structure Source where
  uri : String
  comments : List Value

/-- The comment that a value is. -/
def Comment.ofValue : Value → Checked Comment
  | .element (.comment c) => .ok c
  | _ => .refuse (.notRecord .model "Comment")

/-- The document of a node. -/
def Document.ofNode (source : Source) (n : Node) : Except Rejection Document :=
  (Checked.about "GherkinDocument"
    (.under (.key "comments") (.collect Comment.ofValue 0 source.comments))).map fun comments =>
      { uri := source.uri
        feature := (n.first? .feature).bind Value.feature?
        comments }

/-! ## §5. Any node. -/

/-- An outcome that cannot have found a ragged table. -/
def Fault.lift {α : Type} (f : α → Value) : Except Rejection α → Except (Fault Value) Value
  | .ok a => .ok (f a)
  | .error rejection => .error (.rejected rejection)

/-- What a closed rule stands for. -/
def Node.assemble (source : Source) (n : Node) : Except (Fault Value) Value :=
  match n.type with
  | .step => .ok (.ofElement? .step (Step.ofNode? n))
  | .docString => .ok (.ofElement? .docString (DocString.ofNode? n))
  | .dataTable =>
    match DataTable.ofNode n with
    | .ok table => .ok (.ofElement? .dataTable table)
    | .error fault => .error (fault.map (.ofElement? .dataTable))
  | .background => .ok (.ofElement? .background (Background.ofNode? n))
  | .scenarioDefinition => Fault.lift (.ofElement? .scenario) (Scenario.ofNode n)
  | .examplesDefinition => Fault.lift (.ofElement? .examples) (Examples.ofNode n)
  | .examplesTable =>
    match tableRows (n.tokens .tableRow) with
    | .ok rows => .ok (.ofRows rows)
    | .error fault => .error (fault.map .ofRows)
  | .description => .ok (.text (descriptionText (n.tokens .other)))
  | .feature => Fault.lift (.ofElement? .feature) (Feature.ofNode n)
  | .rule => .ok (.ofElement? .rule (Rule.ofNode? n))
  | .gherkinDocument => Fault.lift (fun d => .element (.document d)) (Document.ofNode source n)
  | _ => .ok (.ofNode n)

/-- What a value stands for once it is closed; anything but a node is left as it is. -/
def Value.assemble (source : Source) (v : Value) : Except (Fault Value) Value :=
  match v.node? with
  | some n => n.assemble source
  | none => .ok v

end Gherkin
