/-
  Gherkin.RuleType
  ────────────────
  **THE CATEGORIES OF THE PARSE TREE.**

  Every child of a node is filed under a rule type: a nested rule under the
  production that was closed, a token under the leaf category of its token
  type.  `root` is the category of the node that holds the whole tree.
  `ofName?_name` says that names tell rule types apart.
-/
import Gherkin.TokenType

namespace Gherkin

/-- A category of the parse tree. -/
inductive RuleType where
  | root
  | leaf (type : TokenType)
  | gherkinDocument | feature | featureHeader | rule | ruleHeader | background
  | scenarioDefinition | scenario | examplesDefinition | examples | examplesTable
  | step | stepArg | dataTable | docString | tags | descriptionHelper | description
  deriving DecidableEq

namespace RuleType

/-- The productions of the grammar, in their fixed order. -/
def productions : List RuleType :=
  [.gherkinDocument, .feature, .featureHeader, .rule, .ruleHeader, .background,
    .scenarioDefinition, .scenario, .examplesDefinition, .examples, .examplesTable,
    .step, .stepArg, .dataTable, .docString, .tags, .descriptionHelper, .description]

/-- All rule types: the root, the leaf categories, the productions. -/
def all : List RuleType := .root :: TokenType.all.map .leaf ++ productions

/-- The name of a rule type in data. -/
def name : RuleType → String
  | .root => "None"
  | .leaf t => "_" ++ t.name
  | .gherkinDocument => "GherkinDocument"
  | .feature => "Feature"
  | .featureHeader => "FeatureHeader"
  | .rule => "Rule"
  | .ruleHeader => "RuleHeader"
  | .background => "Background"
  | .scenarioDefinition => "ScenarioDefinition"
  | .scenario => "Scenario"
  | .examplesDefinition => "ExamplesDefinition"
  | .examples => "Examples"
  | .examplesTable => "ExamplesTable"
  | .step => "Step"
  | .stepArg => "StepArg"
  | .dataTable => "DataTable"
  | .docString => "DocString"
  | .tags => "Tags"
  | .descriptionHelper => "DescriptionHelper"
  | .description => "Description"

/-- The name in capitals; leaf categories say that they are. -/
def constantName : RuleType → String
  | .leaf t => "LEAF_" ++ t.constantName
  | r => Text.constantCase r.name

/-- The rule type with a name. -/
def ofName? (s : String) : Option RuleType := all.find? fun r => r.name = s

/-- The productions that become an element, a table or a text when they close. -/
def assembled : List RuleType :=
  [.step, .docString, .dataTable, .background, .scenarioDefinition, .examplesDefinition,
    .examplesTable, .description, .feature, .rule, .gherkinDocument]

/-- The name of what assembles the nodes of a rule type; other nodes are left as they are. -/
def assemblyName? (r : RuleType) : Option String :=
  if r ∈ assembled then some (Text.memberCase r.name) else none

theorem mem_all (r : RuleType) : r ∈ all := by
  cases r with
  | leaf t => cases t <;> decide
  | _ => decide

theorem ofName?_name (r : RuleType) : ofName? r.name = some r := by
  cases r with
  | leaf t => cases t <;> decide
  | _ => decide

end RuleType

end Gherkin
