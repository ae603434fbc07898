/-
  Gherkin.Proofs.Moved
  ────────────────────
  **POSITIONS PUT ELSEWHERE.**

  A `PositionMap` says where every line and every column goes.  `moved` applies
  it to whatever holds positions, from single places up to nodes of the parse
  tree, and changes nothing else; the column of an item goes where a column
  goes, as long as it is one.

    • `Location.onLine_moved`  — a place made of a line and an item's column
      moves with both,
    • `Node.items_moved`       — the values in a moved node are the moved values,
    • `Value.Carries`          — a reading of values that finds moved what it
      would have found,
    • `Node.token?_moved`, …   — so do all readings of nodes.
-/
import Gherkin.Proofs.Uncommented

namespace Gherkin

/-- Where lines and columns go. -/
structure PositionMap where
  line : UInt32 → UInt32
  column : UInt32 → UInt32

variable (m : PositionMap)

/-! ## §1. Places, items, tokens, events. -/

/-- The place elsewhere. -/
def Location.moved (l : Location) : Location := ⟨m.line l.line, m.column l.column⟩

/-- An integer as a column elsewhere; one that is no column stays. -/
def PositionMap.integer (n : Int) : Int :=
  match position n with
  | .ok c => positionValue (m.column c)
  | .error _ => n

def Item.moved (i : Item) : Item := { i with column := m.integer i.column }

def Token.moved (t : Token) : Token :=
  { t with location := t.location.moved m, items := t.items.map (Item.moved m) }

def Event.moved : Event → Event
  | .opening type spare => .opening type (spare.map (Token.moved m))
  | .closing type spare => .closing type (spare.map (Token.moved m))
  | .leaf token spare => .leaf (token.moved m) spare

theorem PositionMap.position_integer (n : Int) :
    position (m.integer n) = (position n).map m.column := by
  unfold integer
  cases h : position n with
  | ok c => exact position_positionValue (m.column c)
  | error cause => exact h

example : PositionMap.integer ⟨id, fun c => c + 1⟩ 3 = 4
    ∧ PositionMap.integer ⟨id, fun c => c + 1⟩ (-3) = -3 := ⟨rfl, rfl⟩

/-- **A place on a line at an item's column** moves with both; a column out of range stays so. -/
theorem Location.onLine_moved (line : UInt32) (n : Int) :
    onLine (m.line line) (m.integer n) = (onLine line n).map (Location.moved m) := by
  unfold onLine
  rw [m.position_integer]
  cases position n <;> rfl

/-! ## §2. Documents. -/

def Comment.moved (c : Comment) : Comment := { c with location := c.location.moved m }

def Tag.moved (t : Tag) : Tag := { t with location := t.location.moved m }

def TableCell.moved (c : TableCell) : TableCell := { c with location := c.location.moved m }

def TableRow.moved (r : TableRow) : TableRow :=
  { location := r.location.moved m, cells := r.cells.map (TableCell.moved m) }

def DataTable.moved (t : DataTable) : DataTable :=
  { location := t.location.moved m, rows := t.rows.map (TableRow.moved m) }

def DocString.moved (d : DocString) : DocString := { d with location := d.location.moved m }

def Step.moved (s : Step) : Step :=
  { s with location := s.location.moved m
           docString := s.docString.map (DocString.moved m)
           dataTable := s.dataTable.map (DataTable.moved m) }

def Examples.moved (e : Examples) : Examples :=
  { e with location := e.location.moved m
           tags := e.tags.map (Tag.moved m)
           header := e.header.map (TableRow.moved m)
           body := e.body.map (TableRow.moved m) }

def Scenario.moved (s : Scenario) : Scenario :=
  { s with location := s.location.moved m
           tags := s.tags.map (Tag.moved m)
           steps := s.steps.map (Step.moved m)
           examples := s.examples.map (Examples.moved m) }

def Background.moved (b : Background) : Background :=
  { b with location := b.location.moved m, steps := b.steps.map (Step.moved m) }

def RuleChild.moved : RuleChild → RuleChild
  | .background b => .background (b.moved m)
  | .scenario s => .scenario (s.moved m)

def Rule.moved (r : Rule) : Rule :=
  { r with location := r.location.moved m, children := r.children.map (RuleChild.moved m) }

def FeatureChild.moved : FeatureChild → FeatureChild
  | .background b => .background (b.moved m)
  | .scenario s => .scenario (s.moved m)
  | .rule r => .rule (r.moved m)

def Feature.moved (f : Feature) : Feature :=
  { f with location := f.location.moved m
           tags := f.tags.map (Tag.moved m)
           children := f.children.map (FeatureChild.moved m) }

def Document.moved (d : Document) : Document :=
  { d with feature := d.feature.map (Feature.moved m)
           comments := d.comments.map (Comment.moved m) }

def Element.moved : Element → Element
  | .location l => .location (l.moved m)
  | .bare => .bare
  | .located l => .located (l.moved m)
  | .comment c => .comment (c.moved m)
  | .tag t => .tag (t.moved m)
  | .tableCell c => .tableCell (c.moved m)
  | .tableRow r => .tableRow (r.moved m)
  | .dataTable t => .dataTable (t.moved m)
  | .docString d => .docString (d.moved m)
  | .step s => .step (s.moved m)
  | .examples e => .examples (e.moved m)
  | .scenario s => .scenario (s.moved m)
  | .background b => .background (b.moved m)
  | .backgroundChild b => .backgroundChild (b.moved m)
  | .scenarioChild s => .scenarioChild (s.moved m)
  | .rule r => .rule (r.moved m)
  | .featureRuleChild r => .featureRuleChild (r.moved m)
  | .feature f => .feature (f.moved m)
  | .document d => .document (d.moved m)

/-! ## §3. Values and nodes. -/

mutual

/-- The value with all positions in it elsewhere. -/
def Value.moved : Value → Value
  | .list items => .list (Value.movedAll items)
  | .token t => .token (t.moved m)
  | .element e => .element (e.moved m)
  | .node type children => .node type (Value.movedGroups children)
  | v => v

/-- The values with all positions in them elsewhere. -/
def Value.movedAll : List Value → List Value
  | [] => []
  | v :: rest => v.moved :: Value.movedAll rest

/-- The groups with all positions in them elsewhere. -/
def Value.movedGroups : List (RuleType × List Value) → List (RuleType × List Value)
  | [] => []
  | (r, values) :: rest => (r, Value.movedAll values) :: Value.movedGroups rest

end

def Node.moved (n : Node) : Node := ⟨n.type, n.children.mapValues (Value.moved m)⟩

namespace Value

theorem movedAll_eq (values : List Value) : movedAll m values = values.map (moved m) := by
  induction values with
  | nil => rfl
  | cons v rest ih => rw [movedAll, ih, List.map_cons]

theorem movedGroups_eq (groups : Grouped RuleType Value) :
    movedGroups m groups = groups.mapValues (moved m) := by
  induction groups with
  | nil => rfl
  | cons g rest ih =>
      obtain ⟨r, values⟩ := g
      rw [movedGroups, ih, movedAll_eq]
      rfl

theorem moved_ofNode (n : Node) : (ofNode n).moved m = .ofNode (n.moved m) := by
  show Value.node n.type (movedGroups m n.children) = _
  rw [movedGroups_eq]
  rfl

theorem moved_ofRows (rows : List TableRow) :
    (ofRows rows).moved m = .ofRows (rows.map (TableRow.moved m)) := by
  show Value.list (movedAll m (rows.map _)) = .list ((rows.map _).map _)
  rw [movedAll_eq, List.map_map, List.map_map]
  rfl

theorem moved_ofElement? {α : Type} (wrap : α → Element) {f : α → α}
    (h : ∀ a, (wrap a).moved m = wrap (f a)) (o : Option α) :
    (ofElement? wrap o).moved m = ofElement? wrap (o.map f) := by
  cases o with
  | none => rfl
  | some a => exact congrArg Value.element (h a)

/-- Whether a reading finds elsewhere, in a moved value, what it finds in the value. -/
def Carries {α : Type} (read : Value → Option α) (f : α → α) : Prop :=
  ∀ v, read (v.moved m) = (read v).map f

theorem carries_token? : Carries m token? (Token.moved m) := by
  intro v
  cases v <;> rfl

theorem carries_step? : Carries m step? (Step.moved m) := by
  intro v
  cases v with
  | element e => cases e <;> rfl
  | _ => rfl

theorem carries_dataTable? : Carries m dataTable? (DataTable.moved m) := by
  intro v
  cases v with
  | element e => cases e <;> rfl
  | _ => rfl

theorem carries_docString? : Carries m docString? (DocString.moved m) := by
  intro v
  cases v with
  | element e => cases e <;> rfl
  | _ => rfl

theorem carries_examples? : Carries m examples? (Examples.moved m) := by
  intro v
  cases v with
  | element e => cases e <;> rfl
  | _ => rfl

theorem carries_scenario? : Carries m scenario? (Scenario.moved m) := by
  intro v
  cases v with
  | element e => cases e <;> rfl
  | _ => rfl

theorem carries_background? : Carries m background? (Background.moved m) := by
  intro v
  cases v with
  | element e => cases e <;> rfl
  | _ => rfl

theorem carries_rule? : Carries m rule? (Rule.moved m) := by
  intro v
  cases v with
  | element e => cases e <;> rfl
  | _ => rfl

theorem carries_feature? : Carries m feature? (Feature.moved m) := by
  intro v
  cases v with
  | element e => cases e <;> rfl
  | _ => rfl

theorem carries_document? : Carries m document? (Document.moved m) := by
  intro v
  cases v with
  | element e => cases e <;> rfl
  | _ => rfl

theorem carries_node? : Carries m node? (Node.moved m) := by
  intro v
  cases v with
  | node type children => exact congrArg node? (moved_ofNode m ⟨type, children⟩)
  | _ => rfl

/-- A text has no position in it. -/
theorem textOrEmpty_moved (v : Value) : (v.moved m).textOrEmpty = v.textOrEmpty := by
  cases v <;> rfl

end Value

/-! ## §4. Reading moved nodes. -/

namespace Node

theorem items_moved (n : Node) (c : RuleType) :
    (n.moved m).items c = (n.items c).map (Value.moved m) :=
  Grouped.items_mapValues (Value.moved m) c n.children

theorem first?_moved (n : Node) (c : RuleType) :
    (n.moved m).first? c = (n.first? c).map (Value.moved m) := by
  unfold first?
  rw [items_moved, List.head?_map]

theorem add_moved (n : Node) (c : RuleType) (v : Value) :
    (n.moved m).add c (v.moved m) = (n.add c v).moved m := by
  unfold moved add
  rw [Grouped.add_mapValues]

variable {m}

theorem bind_first?_moved {α : Type} {read : Value → Option α} {f : α → α}
    (h : Value.Carries m read f) (n : Node) (c : RuleType) :
    ((n.moved m).first? c).bind read = ((n.first? c).bind read).map f := by
  rw [first?_moved]
  cases n.first? c with
  | none => rfl
  | some v => exact h v

theorem filterMap_items_moved {α : Type} {read : Value → Option α} {f : α → α}
    (h : Value.Carries m read f) (n : Node) (c : RuleType) :
    ((n.moved m).items c).filterMap read = ((n.items c).filterMap read).map f := by
  rw [items_moved, List.filterMap_map, List.map_filterMap]
  exact List.filterMap_congr fun v _ => h v

variable (m) (n : Node)

theorem token?_moved (k : TokenType) :
    (n.moved m).token? k = (n.token? k).map (Token.moved m) :=
  bind_first?_moved (Value.carries_token? m) n _

theorem tokens_moved (k : TokenType) :
    (n.moved m).tokens k = (n.tokens k).map (Token.moved m) :=
  filterMap_items_moved (Value.carries_token? m) n _

theorem node?_moved (c : RuleType) :
    (n.moved m).node? c = (n.node? c).map (Node.moved m) :=
  bind_first?_moved (Value.carries_node? m) n c

theorem steps_moved : (n.moved m).steps = n.steps.map (Step.moved m) :=
  filterMap_items_moved (Value.carries_step? m) n _

theorem examples_moved : (n.moved m).examples = n.examples.map (Examples.moved m) :=
  filterMap_items_moved (Value.carries_examples? m) n _

theorem scenarios_moved : (n.moved m).scenarios = n.scenarios.map (Scenario.moved m) :=
  filterMap_items_moved (Value.carries_scenario? m) n _

theorem rules_moved : (n.moved m).rules = n.rules.map (Rule.moved m) :=
  filterMap_items_moved (Value.carries_rule? m) n _

theorem background?_moved :
    (n.moved m).background? = n.background?.map (Background.moved m) :=
  bind_first?_moved (Value.carries_background? m) n _

theorem description_moved : (n.moved m).description = n.description := by
  unfold description
  rw [first?_moved]
  cases n.first? .description with
  | none => rfl
  | some v => exact v.textOrEmpty_moved m

/-- The inner node and its line move together. -/
theorem introduced?_moved (c : RuleType) (k : TokenType) :
    (n.moved m).introduced? c k
      = (n.introduced? c k).map fun p => (p.1.moved m, p.2.moved m) := by
  unfold introduced?
  rw [node?_moved]
  cases n.node? c with
  | none => rfl
  | some inner =>
      show ((inner.moved m).token? k).map _ = ((inner.token? k).map _).map _
      rw [token?_moved]
      cases inner.token? k <;> rfl

end Node

end Gherkin
