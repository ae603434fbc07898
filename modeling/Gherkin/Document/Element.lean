/-
  Gherkin.Document.Element
  ────────────────────────
  **ELEMENTS OF ANY CLASS.**

  `Element` is the sum of all classes of documents, `ElementClass` its index,
  and `Datum` adds items, tokens and events.  `Datum.read` makes an instance
  of a class from data and `Datum.write` writes it; tokens and items have one
  written form only.
-/
import Gherkin.Document.Schema

namespace Gherkin

/-- The classes of documents. -/
inductive ElementClass where
  | location | bare | located | comment | tag | tableCell | tableRow | dataTable | docString
  | step | examples | scenario | background | backgroundChild | scenarioChild | rule
  | featureRuleChild | feature | document
  deriving DecidableEq

/-- An instance of a class of documents. -/
inductive Element where
  | location (value : Location)
  | bare
  | located (location : Location)
  | comment (value : Comment)
  | tag (value : Tag)
  | tableCell (value : TableCell)
  | tableRow (value : TableRow)
  | dataTable (value : DataTable)
  | docString (value : DocString)
  | step (value : Step)
  | examples (value : Examples)
  | scenario (value : Scenario)
  | background (value : Background)
  | backgroundChild (value : Background)
  | scenarioChild (value : Scenario)
  | rule (value : Rule)
  | featureRuleChild (value : Rule)
  | feature (value : Feature)
  | document (value : Document)
  deriving DecidableEq

namespace ElementClass

/-- All classes. -/
def all : List ElementClass :=
  [.location, .bare, .located, .comment, .tag, .tableCell, .tableRow, .dataTable, .docString,
    .step, .examples, .scenario, .background, .backgroundChild, .scenarioChild, .rule,
    .featureRuleChild, .feature, .document]

/-- The name of a class in data and messages. -/
def name : ElementClass → String
  | .location => "Location"
  | .bare => "GherkinModel"
  | .located => "ASTNode"
  | .comment => "Comment"
  | .tag => "Tag"
  | .tableCell => "TableCell"
  | .tableRow => "TableRow"
  | .dataTable => "DataTable"
  | .docString => "DocString"
  | .step => "Step"
  | .examples => "Examples"
  | .scenario => "Scenario"
  | .background => "Background"
  | .backgroundChild => "BackgroundChild"
  | .scenarioChild => "ScenarioChild"
  | .rule => "Rule"
  | .featureRuleChild => "FeatureRuleChild"
  | .feature => "Feature"
  | .document => "GherkinDocument"

/-- The class with a name. -/
def ofName? (s : String) : Option ElementClass := all.find? fun c => c.name = s

end ElementClass

namespace Element

/-- The class of an element. -/
def cls : Element → ElementClass
  | .location _ => .location
  | .bare => .bare
  | .located _ => .located
  | .comment _ => .comment
  | .tag _ => .tag
  | .tableCell _ => .tableCell
  | .tableRow _ => .tableRow
  | .dataTable _ => .dataTable
  | .docString _ => .docString
  | .step _ => .step
  | .examples _ => .examples
  | .scenario _ => .scenario
  | .background _ => .background
  | .backgroundChild _ => .backgroundChild
  | .scenarioChild _ => .scenarioChild
  | .rule _ => .rule
  | .featureRuleChild _ => .featureRuleChild
  | .feature _ => .feature
  | .document _ => .document

/-- The element of a class that data stands for. -/
def read (c : ElementClass) (j : Json) : Checked Element :=
  match c with
  | .location => .map .location (Location.schema.read j)
  | .bare => .map (fun () => .bare) (bareSchema.read j)
  | .located => .map .located (locatedSchema.read j)
  | .comment => .map .comment (Comment.schema.read j)
  | .tag => .map .tag (Tag.schema.read j)
  | .tableCell => .map .tableCell (TableCell.schema.read j)
  | .tableRow => .map .tableRow (TableRow.schema.read j)
  | .dataTable => .map .dataTable (DataTable.schema.read j)
  | .docString => .map .docString (DocString.schema.read j)
  | .step => .map .step (Step.schema.read j)
  | .examples => .map .examples (Examples.schema.read j)
  | .scenario => .map .scenario (Scenario.schema.read j)
  | .background => .map .background (Background.schema.read j)
  | .backgroundChild => .map .backgroundChild (Background.childSchema.read j)
  | .scenarioChild => .map .scenarioChild (Scenario.childSchema.read j)
  | .rule => .map .rule (Rule.schema.read j)
  | .featureRuleChild => .map .featureRuleChild (Rule.childSchema.read j)
  | .feature => .map .feature (Feature.schema.read j)
  | .document => .map .document (Document.schema.read j)

/-- The data for an element. -/
def write (style : WriteStyle) : Element → Json
  | .location l => Location.schema.write style l
  | .bare => bareSchema.write style ()
  | .located l => locatedSchema.write style l
  | .comment c => Comment.schema.write style c
  | .tag t => Tag.schema.write style t
  | .tableCell c => TableCell.schema.write style c
  | .tableRow r => TableRow.schema.write style r
  | .dataTable t => DataTable.schema.write style t
  | .docString d => DocString.schema.write style d
  | .step s => Step.schema.write style s
  | .examples e => Examples.schema.write style e
  | .scenario s => Scenario.schema.write style s
  | .background b => Background.schema.write style b
  | .backgroundChild b => Background.childSchema.write style b
  | .scenarioChild s => Scenario.childSchema.write style s
  | .rule r => Rule.schema.write style r
  | .featureRuleChild r => Rule.childSchema.write style r
  | .feature f => Feature.schema.write style f
  | .document d => Document.schema.write style d

/-- The element inside a child; other elements hold none. -/
def inner? : Element → Option Element
  | .backgroundChild b => some (.background b)
  | .scenarioChild s => some (.scenario s)
  | .featureRuleChild r => some (.rule r)
  | _ => none

end Element

/-- The argument of a step: its table, else its text block. -/
def Step.argument? (s : Step) : Option Element :=
  match s.dataTable, s.docString with
  | some t, _ => some (.dataTable t)
  | none, some d => some (.docString d)
  | none, none => none

/-- The classes whose instances are made from data. -/
inductive DataClass where
  | item
  | token
  | event
  | element (cls : ElementClass)
  deriving DecidableEq

/-- An instance of one of these classes. -/
inductive Datum where
  | item (value : Item)
  | token (value : Token)
  | event (value : Event)
  | element (value : Element)
  deriving DecidableEq

namespace DataClass

/-- The name of a class in data and messages. -/
def name : DataClass → String
  | .item => "Item"
  | .token => "Token"
  | .event => "Event"
  | .element c => c.name

/-- All classes. -/
def all : List DataClass := [.item, .token, .event] ++ ElementClass.all.map .element

/-- The class with a name. -/
def ofName? (s : String) : Option DataClass := all.find? fun c => c.name = s

end DataClass

namespace Datum

/-- The class of an instance. -/
def cls : Datum → DataClass
  | .item _ => .item
  | .token _ => .token
  | .event _ => .event
  | .element e => .element e.cls

/-- The instance of a class that data stands for. -/
def read (c : DataClass) (j : Json) : Checked Datum :=
  match c with
  | .item => .map .item (Item.schema.read j)
  | .token => .map .token (Token.schema.read j)
  | .event => .map .event (Event.schema.read j)
  | .element c => .map .element (Element.read c j)

/-- The data for an instance. -/
def write (style : WriteStyle) : Datum → Json
  | .item i => Item.schema.write .full i
  | .token t => Token.schema.write .full t
  | .event e => Event.schema.write style e
  | .element e => e.write style

/-- The instance of a class, or the rejection under the name of the class. -/
def validate (c : DataClass) (j : Json) : Except Rejection Datum := (read c j).about c.name

end Datum

/-- The token that data stands for. -/
def Token.ofJson (j : Json) : Except Rejection Token := (Token.schema.read j).about "Token"

/-- The token as data. -/
def Token.toJson (t : Token) : Json := Token.schema.write .full t

/-- The place that data stands for. -/
def Location.ofJson (j : Json) : Except Rejection Location :=
  (Location.schema.read j).about "Location"

/-- The event that data stands for. -/
def Event.ofJson (j : Json) : Except Rejection Event := (Event.schema.read j).about "Event"

/-- The element of a class that data stands for. -/
def Element.ofJson (c : ElementClass) (j : Json) : Except Rejection Element :=
  (Element.read c j).about c.name

/-- The document that data stands for. -/
def Document.ofJson (j : Json) : Except Rejection Document :=
  (Document.schema.read j).about "GherkinDocument"

end Gherkin
