/-
  Gherkin.Proofs.Positions
  ────────────────────────
  **POSITIONS ARE CARRIED, NEVER INTERPRETED.**

  No line and no column decides anything: a run over a stream whose positions
  have been put elsewhere does what it would have done, with the same positions
  elsewhere in all that it builds and reports.

    • `tableRows_moved`, `Node.tags_moved` — rows and tags, whose places are
      made of two parts, the line of a token and the column of an item,
    • `Node.assemble_moved`     — closing a moved node,
    • `Progress.Moved.advance`  — one event of a moved stream,
    • `positions_are_carried`   — and whole streams.

  There is no condition on the map: it may put all positions in one place, or
  in any order.  The columns of items may be out of range, too; an item that is
  refused is refused wherever it is.
-/
import Gherkin.Proofs.Agreement
import Gherkin.Proofs.Moved

namespace Gherkin

variable (m : PositionMap)

/-! ## §1. Rows and tags. -/

/-- A step that moves with the elements of a list moves with the list. -/
theorem mapM_moved {ε α β : Type} {f f' : α → Except ε β} {g : α → α} {h : β → β}
    (hf : ∀ a, f' (g a) = (f a).map h) (l : List α) :
    (l.map g).mapM f' = (l.mapM f).map (List.map h) := by
  induction l with
  | nil => rfl
  | cons a rest ih =>
      rw [List.map_cons, List.mapM_cons, List.mapM_cons, hf, ih]
      cases f a with
      | error x => rfl
      | ok b => cases rest.mapM f <;> rfl

theorem TableCell.ofItem_moved (line : UInt32) (i : Item) :
    ofItem (m.line line) (i.moved m) = (ofItem line i).map (TableCell.moved m) := by
  show (Location.onLine (m.line line) (m.integer i.column)).map _ = _
  rw [Location.onLine_moved]
  unfold ofItem
  cases Location.onLine line i.column <;> rfl

theorem TableRow.ofToken_moved (t : Token) :
    ofToken (t.moved m) = (ofToken t).map (TableRow.moved m) := by
  have hcells : (t.moved m).cells = t.cells.map (List.map (TableCell.moved m)) :=
    mapM_moved (TableCell.ofItem_moved m t.location.line) t.items
  unfold ofToken
  rw [hcells]
  cases t.cells <;> rfl

theorem raggedRow?_moved (rows : List TableRow) :
    raggedRow? (rows.map (TableRow.moved m)) = (raggedRow? rows).map (TableRow.moved m) := by
  cases rows with
  | nil => rfl
  | cons first rest =>
      -- rows are told apart by their numbers of cells
      have hlengths : (fun r : TableRow => decide (r.cells.length ≠ (first.moved m).cells.length))
            ∘ TableRow.moved m
          = fun r => decide (r.cells.length ≠ first.cells.length) := by
        funext r
        simp [TableRow.moved]
      show (rest.map (TableRow.moved m)).find? _ = _
      rw [List.find?_map, hlengths]
      rfl

/-- The fault with its place, and what was kept, elsewhere. -/
def Fault.moved {α : Type} (f : α → α) : Fault α → Fault α
  | .ragged location kept => .ragged (location.moved m) (f kept)
  | .rejected rejection => .rejected rejection

/-- The outcome with all positions in it elsewhere. -/
def Fault.movedOutcome {α : Type} (f : α → α) : Except (Fault α) α → Except (Fault α) α
  | .ok a => .ok (f a)
  | .error fault => .error (fault.moved m f)

/-- **The rows of a moved table** are the moved rows; a ragged one is reported elsewhere. -/
theorem tableRows_moved (tokens : List Token) :
    tableRows (tokens.map (Token.moved m))
      = Fault.movedOutcome m (List.map (TableRow.moved m)) (tableRows tokens) := by
  unfold tableRows
  rw [mapM_moved (TableRow.ofToken_moved m)]
  cases tokens.mapM TableRow.ofToken with
  | error rejection => rfl
  | ok rows =>
      show rectangular (rows.map (TableRow.moved m)) = Fault.movedOutcome m _ (rectangular rows)
      unfold rectangular
      rw [raggedRow?_moved]
      cases raggedRow? rows <;> rfl

theorem Node.tagOfItem_moved (line : UInt32) (i : Item) :
    tagOfItem (m.line line) (i.moved m) = (tagOfItem line i).map (Tag.moved m) := by
  show (Location.onLine (m.line line) (m.integer i.column)).map _ = _
  rw [Location.onLine_moved]
  unfold tagOfItem
  cases Location.onLine line i.column <;> rfl

theorem Node.tagItems_moved (tokens : List Token) :
    tagItems (tokens.map (Token.moved m))
      = (tagItems tokens).map fun p => (m.line p.1, p.2.moved m) := by
  unfold tagItems
  rw [List.flatMap_map, List.map_flatMap]
  congr 1
  funext t
  rw [List.map_map]
  exact List.map_map

/-- **The tags of a moved node** are the moved tags, each on its line. -/
theorem Node.tags_moved (n : Node) :
    (n.moved m).tags = n.tags.map (List.map (Tag.moved m)) := by
  unfold tags
  rw [node?_moved]
  cases n.node? .tags with
  | none => rfl
  | some tagsNode =>
      show (tagItems ((tagsNode.moved m).tokens .tagLine)).mapM _ = _
      rw [tokens_moved, tagItems_moved]
      exact mapM_moved (fun p => tagOfItem_moved m p.1 p.2) _

/-! ## §2. What is made of moved nodes. -/

section

variable (n : Node)

theorem DocString.ofNode?_moved :
    ofNode? (n.moved m) = (ofNode? n).map (DocString.moved m) := by
  have htexts : ((n.tokens .other).map (Token.moved m)).map Token.text
      = (n.tokens .other).map Token.text := by
    rw [List.map_map]
    rfl
  unfold ofNode?
  rw [n.token?_moved, n.tokens_moved, htexts]
  cases n.token? .docStringSeparator <;> rfl

theorem Step.ofNode?_moved : ofNode? (n.moved m) = (ofNode? n).map (Step.moved m) := by
  unfold ofNode?
  rw [n.token?_moved, Node.bind_first?_moved (Value.carries_dataTable? m),
    Node.bind_first?_moved (Value.carries_docString? m)]
  cases n.token? .stepLine with
  | none => rfl
  | some line => cases (n.first? .dataTable).bind Value.dataTable? <;> rfl

theorem Background.ofNode?_moved :
    ofNode? (n.moved m) = (ofNode? n).map (Background.moved m) := by
  unfold ofNode?
  rw [n.token?_moved, n.description_moved, n.steps_moved]
  cases n.token? .backgroundLine <;> rfl

theorem Scenario.ofNode_moved :
    ofNode (n.moved m) = (ofNode n).map (Option.map (Scenario.moved m)) := by
  unfold ofNode
  rw [n.introduced?_moved, n.tags_moved]
  cases n.introduced? .scenario .scenarioLine with
  | none => rfl
  | some found =>
      obtain ⟨inner, line⟩ := found
      simp only [Option.map_some, Node.description_moved, Node.steps_moved, Node.examples_moved]
      cases n.tags <;> rfl

end

/-- A reading that moves with the items of a list moves with the list. -/
theorem Checked.collect_moved {α β : Type} {f : α → Checked β} {g : α → α} {h : β → β}
    (hf : ∀ a, f (g a) = map h (f a)) (l : List α) :
    ∀ i, collect f i (l.map g) = map (List.map h) (collect f i l) := by
  induction l with
  | nil => intro i; rfl
  | cons a rest ih =>
      intro i
      show map _ (pair (under _ (f (g a))) (collect f (i + 1) (rest.map g)))
        = map _ (map _ (pair (under _ (f a)) (collect f (i + 1) rest)))
      rw [hf, ih]
      cases f a <;> cases collect f (i + 1) rest <;> rfl

theorem TableRow.ofValue_moved (v : Value) :
    ofValue (v.moved m) = Checked.map (TableRow.moved m) (ofValue v) := by
  cases v with
  | element e => cases e <;> rfl
  | _ => rfl

theorem TableRow.headerOfValue_moved (v : Value) :
    headerOfValue (v.moved m) = Checked.map (Option.map (TableRow.moved m)) (headerOfValue v) := by
  cases v with
  | element e => cases e <;> rfl
  | _ => rfl

theorem Examples.splitTable_moved (o : Option Value) :
    splitTable (o.map (Value.moved m))
      = Checked.map (fun p => (p.1.map (TableRow.moved m), p.2.map (TableRow.moved m)))
          (splitTable o) := by
  cases o with
  | none => rfl
  | some v =>
      cases v with
      | list items =>
          cases items with
          | nil => rfl
          | cons header body =>
              show Checked.pair (.under _ (TableRow.headerOfValue (header.moved m)))
                  (.under _ (.collect TableRow.ofValue 0 (Value.movedAll m body)))
                = Checked.map _ (Checked.pair (.under _ (TableRow.headerOfValue header))
                    (.under _ (.collect TableRow.ofValue 0 body)))
              rw [TableRow.headerOfValue_moved, Value.movedAll_eq,
                Checked.collect_moved (TableRow.ofValue_moved m)]
              cases TableRow.headerOfValue header <;>
                cases Checked.collect TableRow.ofValue 0 body <;> rfl
      | _ => rfl

section

variable (n : Node)

theorem Examples.ofNode_moved :
    ofNode (n.moved m) = (ofNode n).map (Option.map (Examples.moved m)) := by
  unfold ofNode
  rw [n.introduced?_moved, n.tags_moved]
  cases n.introduced? .examples .examplesLine with
  | none => rfl
  | some found =>
      obtain ⟨inner, line⟩ := found
      simp only [Option.map_some, Node.description_moved, Node.first?_moved, splitTable_moved]
      cases n.tags with
      | error rejection => rfl
      | ok tags => cases splitTable (inner.first? .examplesTable) <;> rfl

/-- The background and the scenarios of a rule move with it. -/
theorem Rule.children_moved (background : Option Background) (scenarios : List Scenario) :
    (background.map (Background.moved m)).toList.map RuleChild.background
        ++ (scenarios.map (Scenario.moved m)).map RuleChild.scenario
      = (background.toList.map RuleChild.background
          ++ scenarios.map RuleChild.scenario).map (RuleChild.moved m) := by
  simp only [List.map_append, List.map_map]
  cases background <;> rfl

theorem Rule.ofNode?_moved : ofNode? (n.moved m) = (ofNode? n).map (Rule.moved m) := by
  unfold ofNode?
  rw [n.introduced?_moved, n.background?_moved, n.scenarios_moved, Rule.children_moved]
  cases n.introduced? .ruleHeader .ruleLine with
  | none => rfl
  | some found =>
      obtain ⟨header, line⟩ := found
      simp only [Option.map_some, Node.description_moved]
      rfl

/-- The background, the scenarios and the rules of a feature move with it. -/
theorem Feature.children_moved (background : Option Background) (scenarios : List Scenario)
    (rules : List Rule) :
    (background.map (Background.moved m)).toList.map FeatureChild.background
        ++ (scenarios.map (Scenario.moved m)).map FeatureChild.scenario
        ++ (rules.map (Rule.moved m)).map FeatureChild.rule
      = (background.toList.map FeatureChild.background ++ scenarios.map FeatureChild.scenario
          ++ rules.map FeatureChild.rule).map (FeatureChild.moved m) := by
  simp only [List.map_append, List.map_map]
  cases background <;> rfl

theorem Feature.ofNode_moved :
    ofNode (n.moved m) = (ofNode n).map (Option.map (Feature.moved m)) := by
  unfold ofNode
  rw [n.introduced?_moved, n.background?_moved, n.scenarios_moved, n.rules_moved,
    Feature.children_moved]
  cases n.introduced? .featureHeader .featureLine with
  | none => rfl
  | some found =>
      obtain ⟨header, line⟩ := found
      simp only [Option.map_some, Node.description_moved, Node.tags_moved]
      cases header.tags <;> rfl

end

/-- What documents take from outside the tree, elsewhere. -/
def Source.moved (s : Source) : Source := { s with comments := s.comments.map (Value.moved m) }

theorem Comment.ofValue_moved (v : Value) :
    ofValue (v.moved m) = Checked.map (Comment.moved m) (ofValue v) := by
  cases v with
  | element e => cases e <;> rfl
  | _ => rfl

theorem Document.ofNode_moved (source : Source) (n : Node) :
    ofNode (source.moved m) (n.moved m) = (ofNode source n).map (Document.moved m) := by
  unfold ofNode
  rw [Node.bind_first?_moved (Value.carries_feature? m)]
  show (Checked.about _ (.under _ (.collect Comment.ofValue 0
    (source.comments.map (Value.moved m))))).map _ = _
  rw [Checked.collect_moved (Comment.ofValue_moved m)]
  cases Checked.collect Comment.ofValue 0 source.comments <;> rfl

/-! ## §3. Closing moved nodes. -/

theorem DataTable.ofRows?_moved (rows : List TableRow) :
    ofRows? (rows.map (TableRow.moved m)) = (ofRows? rows).map (DataTable.moved m) := by
  cases rows <;> rfl

theorem Value.moved_tableValue {r : RuleType} {wrap : List TableRow → Value}
    (h : r.tableValue? = some wrap) (rows : List TableRow) :
    (wrap rows).moved m = wrap (rows.map (TableRow.moved m)) := by
  unfold RuleType.tableValue? at h
  split at h
  · cases h
    show _ = Value.ofElement? _ (DataTable.ofRows? (rows.map _))
    rw [DataTable.ofRows?_moved]
    exact moved_ofElement? m .dataTable (fun _ => rfl) _
  · cases h
    exact moved_ofRows m rows
  · cases h

namespace Fault

/-- The outcome of a rule that cannot fail. -/
theorem element_moved {α : Type} (wrap : α → Element) {f : α → α}
    (h : ∀ a, (wrap a).moved m = wrap (f a)) (o : Option α) :
    .ok (.ofElement? wrap (o.map f))
      = movedOutcome m (Value.moved m) (.ok (.ofElement? wrap o)) :=
  congrArg Except.ok (Value.moved_ofElement? m wrap h o).symm

/-- The outcome of a rule that can be refused. -/
theorem lift_moved {α : Type} {wrap : α → Value} {f : α → α}
    (h : ∀ a, (wrap a).moved m = wrap (f a)) (x : Except Rejection α) :
    lift wrap (x.map f) = movedOutcome m (Value.moved m) (lift wrap x) := by
  cases x with
  | ok a => exact congrArg Except.ok (h a).symm
  | error rejection => rfl

end Fault

namespace Node

variable (source : Source) (n : Node)

/-- **Closing a moved node** leaves the moved value behind, and reports or refuses the same. -/
theorem assemble_moved :
    (n.moved m).assemble (source.moved m)
      = Fault.movedOutcome m (Value.moved m) (n.assemble source) := by
  have htype : (n.moved m).type = n.type := rfl
  cases htable : n.type.tableValue? with
  | some wrap =>
      rw [assemble_table (htype ▸ htable), assemble_table htable, n.tokens_moved, tableRows_moved]
      cases tableRows (n.tokens .tableRow) with
      | ok rows => exact congrArg Except.ok (Value.moved_tableValue m htable rows).symm
      | error fault =>
          cases fault with
          | ragged l kept =>
              exact congrArg (Except.error ∘ Fault.ragged _)
                (Value.moved_tableValue m htable kept).symm
          | rejected r => rfl
  | none =>
      unfold assemble
      rw [htype]
      cases hr : n.type
      case step =>
        simp only [Step.ofNode?_moved]
        exact Fault.element_moved m .step (fun _ => rfl) _
      case docString =>
        simp only [DocString.ofNode?_moved]
        exact Fault.element_moved m .docString (fun _ => rfl) _
      case background =>
        simp only [Background.ofNode?_moved]
        exact Fault.element_moved m .background (fun _ => rfl) _
      case rule =>
        simp only [Rule.ofNode?_moved]
        exact Fault.element_moved m .rule (fun _ => rfl) _
      case scenarioDefinition =>
        simp only [Scenario.ofNode_moved]
        exact Fault.lift_moved m (Value.moved_ofElement? m .scenario fun _ => rfl) _
      case examplesDefinition =>
        simp only [Examples.ofNode_moved]
        exact Fault.lift_moved m (Value.moved_ofElement? m .examples fun _ => rfl) _
      case feature =>
        simp only [Feature.ofNode_moved]
        exact Fault.lift_moved m (Value.moved_ofElement? m .feature fun _ => rfl) _
      case gherkinDocument =>
        have hdocument : ∀ d : Document, (Value.element (.document d)).moved m
            = .element (.document (d.moved m)) := fun _ => rfl
        simp only [Document.ofNode_moved]
        exact Fault.lift_moved m hdocument _
      case description =>
        simp only [descriptionText, n.tokens_moved, List.map_map]
        rfl
      case dataTable | examplesTable =>
        rw [hr] at htable
        cases htable
      all_goals exact congrArg Except.ok (Value.moved_ofNode m n).symm

end Node

/-- A ragged table elsewhere, with what was kept of it. -/
def RaggedTable.moved (r : RaggedTable) : RaggedTable :=
  { location := r.location.moved m, kept := r.kept.moved m }

/-- Arrivals with all positions in them elsewhere. -/
def Value.movedArrivals (arrivals : List (RuleType × Value)) : List (RuleType × Value) :=
  arrivals.map fun a => (a.1, a.2.moved m)

theorem Token.arrival_moved (t : Token) :
    (t.moved m).arrival = Value.movedArrivals m t.arrival := by
  show (if t.type = .comment then [] else [(t.category, Value.token (t.moved m))]) = _
  unfold arrival
  by_cases h : t.type = .comment
  · rw [if_pos h, if_pos h]
    rfl
  · rw [if_neg h, if_neg h]
    rfl

theorem Token.comment?_moved (t : Token) :
    (t.moved m).comment? = t.comment?.map (Comment.moved m) := by
  show (if t.type = .comment then some (Comment.mk (t.location.moved m) t.text) else none) = _
  unfold comment?
  by_cases h : t.type = .comment
  · rw [if_pos h, if_pos h]
    rfl
  · rw [if_neg h, if_neg h]
    rfl

namespace Node

theorem addAll_moved (arrivals : List (RuleType × Value)) (n : Node) :
    (n.moved m).addAll (Value.movedArrivals m arrivals) = (n.addAll arrivals).moved m := by
  induction arrivals generalizing n with
  | nil => rfl
  | cons a rest ih =>
      show ((n.moved m).add a.1 (a.2.moved m)).addAll (Value.movedArrivals m rest)
        = ((n.add a.1 a.2).addAll rest).moved m
      rw [add_moved, ih]

theorem arrival_moved (source : Source) (n : Node) :
    (n.moved m).arrival (source.moved m) = Value.movedArrivals m (n.arrival source) := by
  unfold arrival filed?
  rw [assemble_moved]
  cases n.assemble source with
  | ok v => rfl
  | error fault => cases fault <;> rfl

theorem report?_moved (source : Source) (n : Node) :
    (n.moved m).report? (source.moved m) = (n.report? source).map (RaggedTable.moved m) := by
  unfold report?
  rw [assemble_moved]
  cases n.assemble source with
  | ok v => rfl
  | error fault => cases fault <;> rfl

end Node

/-! ## §4. Runs. -/

def Builder.moved (b : Builder) : Builder :=
  { b with comments := b.comments.map (Comment.moved m), stack := b.stack.map (Node.moved m) }

def Build.moved (build : Build) : Build :=
  { document := build.document.map (Document.moved m)
    errors := build.errors.map (RaggedTable.moved m) }

/-- A note and the note of a moved run in its place: about the same file, or about a ragged table
that is elsewhere. -/
inductive LogEntry.Moved : LogEntry → LogEntry → Prop
  | building (uri : String) : LogEntry.Moved (.building uri) (.building uri)
  | errorClosing (type : RuleType) (table : RaggedTable) :
      LogEntry.Moved (.errorClosing type table.message)
        (.errorClosing type (table.moved m).message)

theorem Builder.source_moved (b : Builder) : (b.moved m).source = b.source.moved m := by
  show Source.mk _ ((b.comments.map _).map _) = Source.mk _ ((b.comments.map _).map _)
  rw [List.map_map, List.map_map]
  rfl

/-- A run and a run over the moved stream, between two events. -/
structure Progress.Moved (p q : Progress) : Prop where
  builder : q.builder = p.builder.moved m
  openRules : q.openRules = p.openRules
  errors : q.errors = p.errors.map (RaggedTable.moved m)
  log : List.Forall₂ (LogEntry.Moved m) p.log q.log

/-- A run that has ended, and the run over the moved stream. -/
structure Run.Moved (r s : Run) : Prop where
  outcome : s.outcome = r.outcome.map (Build.moved m)
  log : List.Forall₂ (LogEntry.Moved m) r.log s.log
  builder : s.builder = r.builder.moved m

namespace Progress

variable {m} {p q : Progress}

theorem Moved.stack {n : Node} {outer : List Node} (h : p.Moved m q)
    (hstack : p.builder.stack = n :: outer) :
    q.builder.stack = n.moved m :: outer.map (Node.moved m) := by
  rw [h.builder]
  show p.builder.stack.map _ = _
  rw [hstack]
  rfl

theorem Moved.source (h : p.Moved m q) : q.builder.source = p.builder.source.moved m := by
  rw [h.builder, Builder.source_moved]

/-- Closing the innermost rule of both runs. -/
theorem Moved.closed (h : p.Moved m q) (type : RuleType) (n k : Node) (inner : List Node)
    (rules : List RuleType) :
    (p.closed type n k inner rules).Moved m
      (q.closed type (n.moved m) (k.moved m) (inner.map (Node.moved m)) rules) where
  builder := by
    have hnode : (k.moved m).addAll ((n.moved m).arrival q.builder.source)
        = (k.addAll (n.arrival p.builder.source)).moved m := by
      rw [h.source, Node.arrival_moved, Node.addAll_moved]
    show Builder.mk q.builder.uri q.builder.documentUri q.builder.comments (_ :: _) = _
    rw [hnode, h.builder]
    rfl
  openRules := rfl
  errors := by
    show q.errors ++ ((n.moved m).report? q.builder.source).toList = List.map _ (p.errors ++ _)
    rw [h.source, Node.report?_moved, h.errors, List.map_append]
    cases n.report? p.builder.source <;> rfl
  log := by
    show List.Forall₂ _ (p.log ++ _)
      (q.log ++ (((n.moved m).report? q.builder.source).map (RaggedTable.note type)).toList)
    rw [h.source, Node.report?_moved]
    cases n.report? p.builder.source with
    | none => exact List.rel_append h.log .nil
    | some table => exact List.rel_append h.log (.cons (.errorClosing type table) .nil)

/-- **One event of a moved stream** does elsewhere what the event does. -/
theorem Moved.advance (h : p.Moved m q) (hp : p.InStep) (stop : Bool) (e : Event) :
    Advance.Related (Progress.Moved m) (p.advance stop e) (q.advance stop (e.moved m)) := by
  cases e with
  | leaf t spare =>
      obtain ⟨n, outer, hstack⟩ := hp.innermost
      show Advance.Related _ _ (q.advance stop (.leaf (t.moved m) spare))
      rw [advance_leaf hstack, advance_leaf (h.stack hstack)]
      have hcomments : q.builder.comments ++ (t.moved m).comment?.toList
          = (p.builder.comments ++ t.comment?.toList).map (Comment.moved m) := by
        rw [h.builder, Token.comment?_moved, List.map_append]
        cases t.comment? <;> rfl
      have hnode : (n.moved m).addAll (t.moved m).arrival = (n.addAll t.arrival).moved m := by
        rw [Token.arrival_moved, Node.addAll_moved]
      refine .goOn ⟨?_, h.openRules, h.errors, h.log⟩
      show Builder.mk q.builder.uri q.builder.documentUri (q.builder.comments ++ _) (_ :: _) = _
      rw [hcomments, hnode, h.builder]
      rfl
  | opening type spare =>
      show Advance.Related _ _ (q.advance stop (.opening type (spare.map (Token.moved m))))
      rw [advance_opening, advance_opening]
      refine .goOn ⟨?_, congrArg (type :: ·) h.openRules, h.errors, h.log⟩
      show q.builder.openRule type = (p.builder.openRule type).moved m
      rw [h.builder]
      rfl
  | closing type spare =>
      show Advance.Related _ _ (q.advance stop (.closing type (spare.map (Token.moved m))))
      cases hrules : p.openRules with
      | nil =>
          rw [advance_nothingOpen hrules, advance_nothingOpen (h.openRules.trans hrules)]
          exact .fail _ h
      | cons innermost rules =>
          have hrules' : q.openRules = innermost :: rules := h.openRules.trans hrules
          by_cases htype : innermost = type
          · subst htype
            obtain ⟨n, k, inner, hstack, -, -⟩ := hp.twoInnermost hrules
            have hclosed := h.closed innermost n k inner rules
            rw [advance_closing hrules, advance_closing hrules', close_cases hstack,
              close_cases (h.stack hstack), h.source, Node.assemble_moved]
            -- both closings end in the same way
            cases n.assemble p.builder.source with
            | ok v => exact .goOn hclosed
            | error fault =>
                cases fault with
                | ragged l kept =>
                    cases stop with
                    | false => exact .goOn hclosed
                    | true => exact .stop hclosed
                | rejected r => exact .fail _ hclosed
          · rw [advance_mismatch hrules htype, advance_mismatch hrules' htype]
            exact .fail _ h

theorem Moved.finish (h : p.Moved m q) (hp : p.InStep) : Run.Moved m p.finish q.finish := by
  obtain ⟨n, outer, hstack⟩ := hp.innermost
  rw [finish_eq hstack, finish_eq (h.stack hstack),
    Node.bind_first?_moved (Value.carries_document? m), h.errors]
  exact ⟨rfl, h.log, h.builder⟩

variable (m) in
/-- **A run over a moved stream** is in lockstep with the run over the stream. -/
theorem lockstep_moved (stop : Bool) :
    Lockstep stop (Event.moved m) (Progress.Moved m) (Run.Moved m) where
  openRules h := h.openRules.symm
  advance h hp e := h.advance hp stop e
  finish h hp _ := h.finish hp
  fail h _ := ⟨rfl, h.log, h.builder⟩

end Progress

/-- **Positions are carried, never interpreted.**  For a stream with every line and every column put
elsewhere, the run fails for the same fault, or has the same document and the same ragged tables in
the same order, with all positions in them elsewhere; the same goes for its notes and for the
builder it leaves behind. -/
theorem positions_are_carried (uri : String) (stop : Bool) (events : List Event) :
    (Run.ofEvents uri stop (events.map (Event.moved m))).outcome
        = (Run.ofEvents uri stop events).outcome.map (Build.moved m)
      ∧ List.Forall₂ (LogEntry.Moved m) (Run.ofEvents uri stop events).log
          (Run.ofEvents uri stop (events.map (Event.moved m))).log
      ∧ (Run.ofEvents uri stop (events.map (Event.moved m))).builder
        = (Run.ofEvents uri stop events).builder.moved m := by
  have hstart : (Progress.start (.new uri)).Moved m (.start (.new uri)) :=
    ⟨rfl, rfl, rfl, .cons (.building uri) .nil⟩
  have hrun : Run.Moved m (Run.ofEvents uri stop events)
      (Run.ofEvents uri stop (events.map (Event.moved m))) :=
    (Progress.lockstep_moved m stop).drive hstart (Progress.inStep_start _) events
  exact ⟨hrun.outcome, hrun.log, hrun.builder⟩

end Gherkin
