/-
  Gherkin.Proofs.WellFormed
  ─────────────────────────
  **WHICH DOCUMENTS CAN BE BUILT.**

  The types of a document admit more than a builder ever makes: a step with
  two arguments, a table without a row, cells on other lines than their rows.
  `Document.WellFormed` says what all built documents have in common:

    • a description is empty or holds something that can be seen,
    • a table has its cells on the lines of its rows; one below a step has a
      first row and stands where that row stands,
    • a step has at most one argument, and an examples section without a
      header has no body,
    • among children an optional background comes first, then scenarios, then
      the rules.

  That tables are rectangular is a condition of its own, `even`: a run that
  reports no ragged table promises it, any other run does not.
-/
import Gherkin.Document
import Gherkin.Text.Blank

namespace Gherkin

/-! ## §1. Texts and tables. -/

/-- A description that a builder can make: none at all, or one that can be seen. -/
def Described (text : String) : Prop := text = "" ∨ ∃ c ∈ text.toList, Text.isBlank c = false

theorem described_iff {text : String} : Described text ↔ text = "" ∨ Text.blank text = false := by
  unfold Described Text.blank
  rw [List.all_eq_false]
  simp only [Bool.not_eq_true]

variable (even : Prop)

/-- The rows of one table; `even` is the condition under which it is rectangular. -/
structure Tabular (rows : List TableRow) : Prop where
  onLine : ∀ r ∈ rows, ∀ c ∈ r.cells, c.location.line = r.location.line
  rectangular : even → ∀ r ∈ rows, ∀ s ∈ rows, r.cells.length = s.cells.length

/-- A table below a step. -/
structure DataTable.WellFormed (t : DataTable) : Prop where
  tabular : Tabular even t.rows
  first : t.rows.head?.map TableRow.location = some t.location

/-! ## §2. Elements. -/

/-- A step. -/
structure Step.WellFormed (s : Step) : Prop where
  oneArgument : s.dataTable = none ∨ s.docString = none
  table : ∀ t ∈ s.dataTable, t.WellFormed even

/-- A background. -/
structure Background.WellFormed (b : Background) : Prop where
  described : Described b.description
  steps : ∀ s ∈ b.steps, s.WellFormed even

/-- An examples section. -/
structure Examples.WellFormed (e : Examples) : Prop where
  described : Described e.description
  tabular : Tabular even (e.header.toList ++ e.body)
  headed : e.header = none → e.body = []

/-- A scenario. -/
structure Scenario.WellFormed (s : Scenario) : Prop where
  described : Described s.description
  steps : ∀ step ∈ s.steps, step.WellFormed even
  examples : ∀ e ∈ s.examples, e.WellFormed even

/-- A child of a rule. -/
def RuleChild.WellFormed : RuleChild → Prop
  | .background b => b.WellFormed even
  | .scenario s => s.WellFormed even

/-- A rule. -/
structure Rule.WellFormed (r : Rule) : Prop where
  described : Described r.description
  ordered : ∃ (background? : Option Background) (scenarios : List Scenario),
    r.children = background?.toList.map .background ++ scenarios.map .scenario
  children : ∀ c ∈ r.children, c.WellFormed even

/-- A child of a feature. -/
def FeatureChild.WellFormed : FeatureChild → Prop
  | .background b => b.WellFormed even
  | .scenario s => s.WellFormed even
  | .rule r => r.WellFormed even

/-- A feature. -/
structure Feature.WellFormed (f : Feature) : Prop where
  described : Described f.description
  ordered : ∃ (background? : Option Background) (scenarios : List Scenario) (rules : List Rule),
    f.children = background?.toList.map .background ++ scenarios.map .scenario ++ rules.map .rule
  children : ∀ c ∈ f.children, c.WellFormed even

/-- A document. -/
def Document.WellFormed (d : Document) : Prop := ∀ f ∈ d.feature, f.WellFormed even

end Gherkin
