/-
  Gherkin.Document
  ────────────────
  **THE TYPED DOCUMENT.**

  One structure per element of a feature file, each with the place of the
  line that introduced it.  A rule holds backgrounds and scenarios, a feature
  those and rules; the two inductive types of children say so.
-/
import Gherkin.Location

namespace Gherkin

/-! ## §1. Leaves. -/

/-- A comment line. -/
structure Comment where
  location : Location
  text : String
  deriving DecidableEq

/-- A tag. -/
structure Tag where
  location : Location
  name : String
  deriving DecidableEq

/-- A cell of a table. -/
structure TableCell where
  location : Location
  value : String
  deriving DecidableEq

/-- A row of a table. -/
structure TableRow where
  location : Location
  cells : List TableCell
  deriving DecidableEq

/-! ## §2. Steps and their arguments. -/

/-- A table below a step. -/
structure DataTable where
  location : Location
  rows : List TableRow
  deriving DecidableEq

/-- A text block below a step. -/
structure DocString where
  location : Location
  contentType : String
  content : String
  delimiter : String
  deriving DecidableEq

/-- A step. -/
structure Step where
  location : Location
  keyword : String
  text : String
  docString : Option DocString
  dataTable : Option DataTable
  deriving DecidableEq

/-! ## §3. Backgrounds and scenarios. -/

/-- An examples section: a table of values for the scenario it belongs to. -/
structure Examples where
  location : Location
  tags : List Tag
  keyword : String
  name : String
  description : String
  header : Option TableRow
  body : List TableRow
  deriving DecidableEq

/-- A scenario. -/
structure Scenario where
  location : Location
  tags : List Tag
  keyword : String
  name : String
  description : String
  steps : List Step
  examples : List Examples
  deriving DecidableEq

/-- A background: steps that run before every scenario. -/
structure Background where
  location : Location
  keyword : String
  name : String
  description : String
  steps : List Step
  deriving DecidableEq

/-! ## §4. Rules, features, documents. -/

/-- A child of a rule. -/
inductive RuleChild where
  | background (value : Background)
  | scenario (value : Scenario)
  deriving DecidableEq

/-- A business rule. -/
structure Rule where
  location : Location
  keyword : String
  name : String
  description : String
  children : List RuleChild
  deriving DecidableEq

/-- A child of a feature. -/
inductive FeatureChild where
  | background (value : Background)
  | scenario (value : Scenario)
  | rule (value : Rule)
  deriving DecidableEq

/-- A feature. -/
structure Feature where
  location : Location
  tags : List Tag
  language : String
  keyword : String
  name : String
  description : String
  children : List FeatureChild
  deriving DecidableEq

/-- A feature file: its feature, if there is one, and all its comments. -/
structure Document where
  uri : String
  feature : Option Feature
  comments : List Comment
  deriving DecidableEq

end Gherkin
