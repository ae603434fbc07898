/-
  Gherkin.Proofs.Rebuilding
  ─────────────────────────
  **EVERY WELL-FORMED DOCUMENT CAN BE BUILT.**

  A document is spelled out as a forest: one token per tag, per row and per
  line that introduces an element, a whole description or doc string in one
  token, the comments in front.  Reading inverts spelling:

    • `Forest.Yields`   — a forest evaluates to given values wherever it
      stands, without a fault; it is closed under `append`, `map` and `rule`,
    • one lemma per element: its tree yields the element, if it is well formed,
    • `exists_events_of_wellFormed` — so the walk over the forest of a document
      builds exactly this document and reports nothing.
-/
import Gherkin.Proofs.Replay
import Gherkin.Proofs.WellFormed

namespace Gherkin

/-! ## §1. Forests and what they yield. -/

/-- Whether a forest evaluates to the given values wherever it stands, without a comment and without
a fault. -/
structure Forest.Yields (f : Forest) (values : List (RuleType × Value)) : Prop where
  arrivals : ∀ uri before, f.arrivals uri before = values
  fits : ∀ t ∈ f.tokens, t.Fits
  comments : f.comments = []
  faults : f.faults = []

namespace Forest

theorem yields_nil : Yields [] [] where
  arrivals _ _ := rfl
  fits := by simp
  comments := rfl
  faults := rfl

theorem Yields.append {f g : Forest} {as bs : List (RuleType × Value)} (hf : f.Yields as)
    (hg : g.Yields bs) : Yields (f ++ g) (as ++ bs) where
  arrivals uri before := by rw [arrivals_append, hf.arrivals, hg.arrivals]
  fits t ht := by
    rw [tokens_append] at ht
    rcases List.mem_append.1 ht with ht | ht
    · exact hf.fits t ht
    · exact hg.fits t ht
  comments := by rw [comments_append, hf.comments, hg.comments, List.nil_append]
  faults := by rw [faults_append, hf.faults, hg.faults, List.nil_append]

theorem Yields.cons {t : Tree} {f : Forest} {a : RuleType × Value}
    {as : List (RuleType × Value)} (ht : Yields [t] [a]) (hf : f.Yields as) :
    Yields (t :: f) (a :: as) :=
  ht.append hf

theorem Yields.map {α : Type} {tree : α → Tree} {value : α → RuleType × Value} {l : List α}
    (h : ∀ a ∈ l, Yields [tree a] [value a]) : Yields (l.map tree) (l.map value) := by
  induction l with
  | nil => exact yields_nil
  | cons a rest ih =>
      exact (h a List.mem_cons_self).cons (ih fun b hb => h b (List.mem_cons_of_mem _ hb))

/-- A token yields itself. -/
theorem yields_leaf {t : Token} (htype : t.type ≠ .comment) (ht : t.Fits) :
    Yields [.leaf t] [(t.category, .token t)] where
  arrivals uri before := by
    rw [arrivals_leaf, Token.arrival, if_neg htype]
    rfl
  fits u hu := by
    rw [List.mem_singleton.1 hu]
    exact ht
  comments := by
    rw [comments_singleton_leaf, Token.comment?, if_neg htype]
    rfl
  faults := rfl

/-- A rule yields what its node becomes, provided that this is no ragged table. -/
theorem Yields.rule {children : Forest} {as : List (RuleType × Value)} {type : RuleType}
    {v : Value} (h : children.Yields as)
    (hv : ∀ source, (Node.ofArrivals type as).assemble source = .ok v) :
    Yields [.rule type children] [(type, v)] where
  arrivals uri before := by
    rw [arrivals_rule, h.arrivals, Node.arrival_of_filed (Node.filed?_of_ok (hv _))]
    rfl
  fits t ht := by
    rw [tokens_rule, tokens_nil, List.append_nil] at ht
    exact h.fits t ht
  comments := by rw [comments_singleton_rule, h.comments]
  faults := by
    have hnone := Node.report?_of_ok (hv (.of "" []))
    rw [← h.arrivals "" [], report?_node _ _ _ h.fits] at hnone
    rw [faults_rule, h.faults, hnone]
    rfl

end Forest

/-! ## §2. Tokens for the parts of a document. -/

/-- The token that introduces an element. -/
def Token.introducing (type : TokenType) (l : Location) (keyword text : String) : Token :=
  { type, location := l, keyword, text }

/-- The line of a single tag. -/
def Tag.line (t : Tag) : Token :=
  { type := .tagLine, location := t.location
    items := [⟨positionValue t.location.column, t.name⟩] }

/-- The line of a row. -/
def TableRow.line (r : TableRow) : Token :=
  { type := .tableRow, location := r.location
    items := r.cells.map fun c => ⟨positionValue c.location.column, c.value⟩ }

/-- The line of a comment. -/
def Comment.line (c : Comment) : Token :=
  { type := .comment, location := c.location, text := c.text }

theorem Item.inRange_positionValue (p : UInt32) (text : String) :
    (⟨positionValue p, text⟩ : Item).InRange := by
  have h := p.toNat_lt
  unfold Item.InRange positionValue maxPosition
  simp only [Int.ofNat_eq_natCast]
  omega

theorem Item.place_positionValue (line p : UInt32) (text : String) :
    (⟨positionValue p, text⟩ : Item).place line = ⟨line, p⟩ := by
  simp [Item.place, positionValue]

theorem Tag.fits_line (t : Tag) : t.line.Fits := by
  intro _ i hi
  rw [List.mem_singleton.1 hi]
  exact Item.inRange_positionValue _ _

theorem Tag.tags_line (t : Tag) : t.line.tags = [t] := by
  unfold Token.tags Tag.line
  simp only [List.map_cons, List.map_nil, Item.place_positionValue]

theorem TableRow.fits_line (r : TableRow) : r.line.Fits := by
  intro _ i hi
  obtain ⟨c, -, rfl⟩ := List.mem_map.1 hi
  exact Item.inRange_positionValue _ _

/-- A row whose cells are on its line is the row of its token. -/
theorem TableRow.row_line {r : TableRow} (h : ∀ c ∈ r.cells, c.location.line = r.location.line) :
    r.line.row = r := by
  have hcells : r.line.row.cells = r.cells := by
    show (r.cells.map _).map _ = r.cells
    rw [List.map_map]
    conv_rhs => rw [← List.map_id r.cells]
    apply List.map_congr_left
    intro c hc
    simp only [Function.comp_apply, Item.place_positionValue]
    show TableCell.mk ⟨r.location.line, c.location.column⟩ c.value = c
    rw [← h c hc]
  show TableRow.mk r.location r.line.row.cells = r
  rw [hcells]

theorem Token.fits_introducing {type : TokenType} (l : Location) (keyword text : String) :
    (Token.introducing type l keyword text).Fits := by
  intro _ i hi
  cases hi

theorem Forest.yields_introducing (type : TokenType) (h : type ≠ .comment) (l : Location)
    (keyword text : String) :
    Yields [.leaf (.introducing type l keyword text)]
      [(.leaf type, .token (.introducing type l keyword text))] :=
  yields_leaf h (Token.fits_introducing l keyword text)

/-! ## §3. Descriptions, tags and tables. -/

/-- The tree of a description, all of it in one token. -/
def Tree.describing (l : Location) (text : String) : Tree :=
  .rule .description [.leaf (.introducing .other l "" text)]

/-- The tree of some tags, each on a line of its own. -/
def Tree.tagging (tags : List Tag) : Tree := .rule .tags (tags.map fun t => .leaf t.line)

/-- The trees of the rows of a table. -/
def Forest.ofRows (rows : List TableRow) : Forest := rows.map fun r => .leaf r.line

/-- What the tree of some tags yields: its node, with one token for each of them. -/
def Node.ofTags (tags : List Tag) : Node :=
  ofArrivals .tags (tags.map fun t => (.leaf .tagLine, .token t.line))

theorem Node.tokens_ofArrivals_map {α : Type} (type : RuleType) (k : TokenType) (line : α → Token)
    (l : List α) :
    (ofArrivals type (l.map fun a => (.leaf k, .token (line a)))).tokens k = l.map line := by
  unfold tokens
  rw [items_ofArrivals, Grouped.arrived_map, if_pos rfl, List.filterMap_map]
  exact congrFun List.filterMap_eq_map l

theorem Described.paragraph_singleton {text : String} (h : Described text) :
    Text.paragraph [text] = text := by
  obtain rfl | hblank := described_iff.1 h
  · decide
  · unfold Text.paragraph Text.dropTrailingBlank
    rw [List.reverse_singleton, List.dropWhile_cons, if_neg (by simp [hblank])]
    simp [Text.joinLines]

theorem Forest.yields_describing (l : Location) {text : String} (h : Described text) :
    Yields [.describing l text] [(.description, .text text)] := by
  apply (yields_introducing .other nofun l "" text).rule
  intro source
  have htokens : (Node.ofArrivals .description
      [(.leaf .other, .token (.introducing .other l "" text))]).tokens .other
        = [.introducing .other l "" text] :=
    Node.tokens_ofArrivals_map .description .other (Token.introducing .other l "") [text]
  show Except.ok (Value.text (descriptionText (Node.tokens .other _))) = _
  rw [htokens]
  show Except.ok (Value.text (Text.paragraph [text])) = _
  rw [h.paragraph_singleton]

theorem Forest.yields_tagging (tags : List Tag) :
    Yields [.tagging tags] [(.tags, .ofNode (.ofTags tags))] := by
  have htags : Yields (tags.map fun t => .leaf t.line)
      (tags.map fun t => (.leaf .tagLine, .token t.line)) :=
    Yields.map fun t _ => yields_leaf nofun t.fits_line
  have hgeneric : RuleType.tags ∉ RuleType.assembled := by decide
  exact htags.rule fun source => Node.assemble_generic hgeneric source

/-- The tags of a node whose first tags were spelled out. -/
theorem Node.tags_of_spelled {n : Node} {tags : List Tag}
    (h : n.first? .tags = some (.ofNode (.ofTags tags))) : n.tags = .ok tags := by
  have hlines : n.tagLines = tags.map Tag.line := by
    unfold Node.tagLines Node.node?
    rw [h]
    exact Node.tokens_ofArrivals_map .tags .tagLine Tag.line tags
  rw [Node.tags_eq, hlines]
  · simp [List.flatMap_map, Tag.tags_line]
  · intro t ht i hi
    rw [hlines] at ht
    obtain ⟨tag, -, rfl⟩ := List.mem_map.1 ht
    exact tag.fits_line (.inr rfl) i hi

/-- The rows of a rectangular table come back from their lines. -/
theorem Tabular.tableRows_lines {rows : List TableRow} (h : Tabular True rows) :
    tableRows (rows.map TableRow.line) = .ok rows := by
  have hrows : (rows.map TableRow.line).map Token.row = rows := by
    rw [List.map_map]
    conv_rhs => rw [← List.map_id rows]
    exact List.map_congr_left fun r hr => TableRow.row_line (h.onLine r hr)
  have hragged : raggedToken? (rows.map TableRow.line) = none := by
    have hnone := raggedRow?_eq_none_iff.2 (h.rectangular trivial)
    rw [← hrows, raggedRow?_map_row] at hnone
    exact Option.map_eq_none_iff.1 hnone
  rw [tableRows_eq, hragged, hrows]
  intro t ht i hi
  obtain ⟨r, -, rfl⟩ := List.mem_map.1 ht
  exact r.fits_line (.inl rfl) i hi

/-- A rectangular table yields the value of its rows. -/
theorem Forest.yields_table {type : RuleType} {wrap : List TableRow → Value}
    (htype : type.tableValue? = some wrap) {rows : List TableRow} (h : Tabular True rows) :
    Yields [.rule type (ofRows rows)] [(type, wrap rows)] := by
  have hrows : Yields (ofRows rows) (rows.map fun r => (.leaf .tableRow, .token r.line)) :=
    Yields.map fun r _ => yields_leaf nofun r.fits_line
  apply hrows.rule
  intro source
  rw [Node.assemble_table htype, Node.tokens_ofArrivals_map, h.tableRows_lines]

/-! ## §4. Steps and their arguments. -/

/-- Elements of one class, as they arrive from the trees side by side. -/
def Value.each {α : Type} (c : RuleType) (wrap : α → Element) (l : List α) :
    List (RuleType × Value) :=
  l.map fun a => (c, .element (wrap a))

@[simp] theorem Value.arrived_each {α : Type} (key c : RuleType) (wrap : α → Element)
    (l : List α) :
    Grouped.arrived key (each c wrap l) =
      if c = key then l.map fun a => .element (wrap a) else [] :=
  Grouped.arrived_map key c _ l

/-- The first token decides which line introduces a node. -/
theorem Node.token?_ofArrivals (type : RuleType) (k : TokenType) (t : Token)
    (as : List (RuleType × Value)) :
    (ofArrivals type ((.leaf k, .token t) :: as)).token? k = some t := by
  unfold token? first?
  rw [items_ofArrivals, Grouped.arrived_cons, if_pos rfl]
  rfl

/-- The tree of a table below a step. -/
def DataTable.tree (t : DataTable) : Tree := .rule .dataTable (Forest.ofRows t.rows)

theorem DataTable.WellFormed.yields_tree {t : DataTable} (h : t.WellFormed True) :
    Forest.Yields [t.tree] [(.dataTable, .element (.dataTable t))] := by
  have hrows : DataTable.ofRows? t.rows = some t := by
    have hfirst := h.first
    obtain ⟨location, rows⟩ := t
    cases rows with
    | nil => cases hfirst
    | cons first rest =>
        cases hfirst
        rfl
  have htable := @Forest.yields_table .dataTable _ rfl _ h.tabular
  rw [hrows] at htable
  exact htable

/-- The tree of a doc string, its content in one token. -/
def DocString.tree (d : DocString) : Tree :=
  .rule .docString
    [ .leaf (.introducing .docStringSeparator d.location d.delimiter d.contentType),
      .leaf (.introducing .other d.location "" d.content) ]

theorem DocString.yields_tree (d : DocString) :
    Forest.Yields [d.tree] [(.docString, .element (.docString d))] := by
  apply ((Forest.yields_introducing .docStringSeparator nofun _ _ _).cons
    (Forest.yields_introducing .other nofun _ _ _)).rule
  intro source
  show Except.ok (Value.ofElement? .docString (DocString.ofNode? _)) = _
  unfold DocString.ofNode? Node.tokens
  rw [Node.token?_ofArrivals, Node.items_ofArrivals]
  show Except.ok (Value.element (.docString ⟨d.location, d.contentType, "\n".intercalate [d.content],
    d.delimiter⟩)) = _
  simp

/-- What arrives at the node of a step. -/
def Step.parts (s : Step) : List (RuleType × Value) :=
  (.leaf .stepLine, .token (.introducing .stepLine s.location s.keyword s.text)) ::
    (Value.each .dataTable .dataTable s.dataTable.toList
      ++ Value.each .docString .docString s.docString.toList)

/-- The tree of a step. -/
def Step.tree (s : Step) : Tree :=
  .rule .step
    (.leaf (.introducing .stepLine s.location s.keyword s.text) ::
      (s.dataTable.toList.map DataTable.tree ++ s.docString.toList.map DocString.tree))

theorem Step.WellFormed.ofNode?_parts {s : Step} (h : s.WellFormed True) :
    Step.ofNode? (.ofArrivals .step s.parts) = some s := by
  unfold Step.ofNode? Step.parts Node.first?
  rw [Node.token?_ofArrivals, Node.items_ofArrivals, Node.items_ofArrivals]
  simp only [Grouped.arrived_cons, Grouped.arrived_append, Value.arrived_each, reduceIte,
    reduceCtorEq, List.nil_append, List.append_nil]
  obtain ⟨location, keyword, text, docString, dataTable⟩ := s
  -- a data table is preferred to a doc string, and one of the two is missing
  obtain rfl | rfl := h.oneArgument
  · cases docString <;> rfl
  · cases dataTable <;> rfl

theorem Step.WellFormed.yields_tree {s : Step} (h : s.WellFormed True) :
    Forest.Yields [s.tree] [(.step, .element (.step s))] := by
  have htables : Forest.Yields (s.dataTable.toList.map DataTable.tree)
      (Value.each .dataTable .dataTable s.dataTable.toList) :=
    Forest.Yields.map fun t ht => (h.table t (Option.mem_toList.1 ht)).yields_tree
  have hstrings : Forest.Yields (s.docString.toList.map DocString.tree)
      (Value.each .docString .docString s.docString.toList) :=
    Forest.Yields.map fun d _ => d.yields_tree
  apply ((Forest.yields_introducing .stepLine nofun _ _ _).cons (htables.append hstrings)).rule
  intro source
  show Except.ok (Value.ofElement? .step (Step.ofNode? (.ofArrivals .step s.parts))) = _
  rw [h.ofNode?_parts]
  rfl

/-! ## §5. Backgrounds, scenarios and examples. -/

theorem Node.steps_of_items {n : Node} {steps : List Step}
    (h : n.items .step = steps.map fun s => .element (.step s)) : n.steps = steps := by
  unfold Node.steps
  rw [h, Value.reads_step?.filterMap_elements]

theorem Node.examples_of_items {n : Node} {examples : List Examples}
    (h : n.items .examplesDefinition = examples.map fun e => .element (.examples e)) :
    n.examples = examples := by
  unfold Node.examples
  rw [h, Value.reads_examples?.filterMap_elements]

theorem Forest.yields_steps {steps : List Step} (h : ∀ s ∈ steps, s.WellFormed True) :
    Yields (steps.map Step.tree) (Value.each .step .step steps) :=
  Yields.map fun s hs => (h s hs).yields_tree

/-- What arrives at the node of a background. -/
def Background.parts (b : Background) : List (RuleType × Value) :=
  (.leaf .backgroundLine, .token (.introducing .backgroundLine b.location b.keyword b.name)) ::
    (.description, .text b.description) :: Value.each .step .step b.steps

/-- The tree of a background. -/
def Background.tree (b : Background) : Tree :=
  .rule .background
    (.leaf (.introducing .backgroundLine b.location b.keyword b.name) ::
      .describing b.location b.description :: b.steps.map Step.tree)

theorem Background.ofNode?_parts (b : Background) :
    Background.ofNode? (.ofArrivals .background b.parts) = some b := by
  have hdescription : (Node.ofArrivals .background b.parts).description = b.description :=
    Node.description_of_items (by simp [parts])
  have hsteps : (Node.ofArrivals .background b.parts).steps = b.steps :=
    Node.steps_of_items (by simp [parts])
  unfold Background.ofNode?
  rw [hdescription, hsteps, parts, Node.token?_ofArrivals]
  rfl

theorem Background.WellFormed.yields_tree {b : Background} (h : b.WellFormed True) :
    Forest.Yields [b.tree] [(.background, .element (.background b))] := by
  apply ((Forest.yields_introducing .backgroundLine nofun _ _ _).cons
    ((Forest.yields_describing _ h.described).cons (Forest.yields_steps h.steps))).rule
  intro source
  show Except.ok (Value.ofElement? .background
    (Background.ofNode? (.ofArrivals .background b.parts))) = _
  rw [b.ofNode?_parts]
  rfl

/-- What arrives at the inner node of an examples section. -/
def Examples.parts (e : Examples) : List (RuleType × Value) :=
  [ (.leaf .examplesLine, .token (.introducing .examplesLine e.location e.keyword e.name)),
    (.description, .text e.description),
    (.examplesTable, .ofRows (e.header.toList ++ e.body)) ]

/-- The tree of an examples section. -/
def Examples.tree (e : Examples) : Tree :=
  .rule .examplesDefinition
    [ .tagging e.tags,
      .rule .examples
        [ .leaf (.introducing .examplesLine e.location e.keyword e.name),
          .describing e.location e.description,
          .rule .examplesTable (Forest.ofRows (e.header.toList ++ e.body)) ] ]

/-- A definition, made of its tags and its inner node. -/
def Node.ofDefinition (type : RuleType) (tags : List Tag) (inner : Node) : Node :=
  ofArrivals type [(.tags, .ofNode (.ofTags tags)), (inner.type, .ofNode inner)]

theorem Node.tags_ofDefinition (type : RuleType) (tags : List Tag) (inner : Node) :
    (ofDefinition type tags inner).tags = .ok tags := by
  apply tags_of_spelled
  unfold first? ofDefinition
  simp

theorem Node.introduced?_ofDefinition (type : RuleType) (tags : List Tag) (inner : Node)
    {k : TokenType} {line : Token} (h : inner.type ≠ .tags) (hline : inner.token? k = some line) :
    (ofDefinition type tags inner).introduced? inner.type k = some (inner, line) := by
  apply introduced?_of_items _ hline
  unfold ofDefinition
  simp [Ne.symm h]

/-- The tree of a definition yields what its node becomes. -/
theorem Forest.Yields.definition {type innerType : RuleType} {children : Forest}
    {as : List (RuleType × Value)} {v : Value} (tags : List Tag) (h : children.Yields as)
    (hinner : innerType ∉ RuleType.assembled)
    (hv : ∀ source, (Node.ofDefinition type tags (.ofArrivals innerType as)).assemble source
      = .ok v) :
    Yields [.rule type [.tagging tags, .rule innerType children]] [(type, v)] := by
  have hnode : Yields [.rule innerType children]
      [(innerType, .ofNode (.ofArrivals innerType as))] :=
    h.rule fun source => Node.assemble_generic hinner source
  exact ((yields_tagging tags).cons hnode).rule hv

theorem Examples.WellFormed.ofNode_parts {e : Examples} (h : e.WellFormed True) :
    Examples.ofNode (.ofDefinition .examplesDefinition e.tags (.ofArrivals .examples e.parts))
      = .ok (some e) := by
  set inner := Node.ofArrivals .examples e.parts with hinner
  have hline : inner.token? .examplesLine
      = some (.introducing .examplesLine e.location e.keyword e.name) := by
    rw [hinner, parts, Node.token?_ofArrivals]
  have hdescription : inner.description = e.description :=
    Node.description_of_items (by simp [hinner, parts])
  have htable : inner.first? .examplesTable = some (.ofRows (e.header.toList ++ e.body)) := by
    simp [hinner, Node.first?, parts]
  have hintro : (Node.ofDefinition .examplesDefinition e.tags inner).introduced? .examples
      .examplesLine = some (inner, _) :=
    Node.introduced?_ofDefinition .examplesDefinition e.tags inner
      (show RuleType.examples ≠ .tags by decide) hline
  have htags := Node.tags_ofDefinition .examplesDefinition e.tags inner
  unfold Examples.ofNode
  simp only [hintro, htags, htable, Examples.splitTable_ofRows, hdescription]
  -- the first row is the header, and without a header there is no row
  obtain ⟨location, tags, keyword, name, description, header, body⟩ := e
  cases header with
  | some row => rfl
  | none =>
      obtain rfl : body = [] := h.headed rfl
      rfl

theorem Examples.WellFormed.yields_tree {e : Examples} (h : e.WellFormed True) :
    Forest.Yields [e.tree] [(.examplesDefinition, .element (.examples e))] := by
  have htable : Forest.Yields [.rule .examplesTable (Forest.ofRows (e.header.toList ++ e.body))]
      [(.examplesTable, .ofRows (e.header.toList ++ e.body))] :=
    Forest.yields_table rfl h.tabular
  apply ((Forest.yields_introducing .examplesLine nofun _ _ _).cons
    ((Forest.yields_describing _ h.described).cons htable)).definition e.tags (by decide)
  intro source
  show Fault.lift (.ofElement? .examples) (Examples.ofNode (.ofDefinition .examplesDefinition
    e.tags (.ofArrivals .examples e.parts))) = _
  rw [h.ofNode_parts]
  rfl

/-- What arrives at the inner node of a scenario. -/
def Scenario.parts (s : Scenario) : List (RuleType × Value) :=
  (.leaf .scenarioLine, .token (.introducing .scenarioLine s.location s.keyword s.name)) ::
    (.description, .text s.description) ::
    (Value.each .step .step s.steps ++ Value.each .examplesDefinition .examples s.examples)

/-- The tree of a scenario. -/
def Scenario.tree (s : Scenario) : Tree :=
  .rule .scenarioDefinition
    [ .tagging s.tags,
      .rule .scenario
        (.leaf (.introducing .scenarioLine s.location s.keyword s.name) ::
          .describing s.location s.description ::
          (s.steps.map Step.tree ++ s.examples.map Examples.tree)) ]

theorem Scenario.ofNode_parts (s : Scenario) :
    Scenario.ofNode (.ofDefinition .scenarioDefinition s.tags (.ofArrivals .scenario s.parts))
      = .ok (some s) := by
  set inner := Node.ofArrivals .scenario s.parts with hinner
  have hline : inner.token? .scenarioLine
      = some (.introducing .scenarioLine s.location s.keyword s.name) := by
    rw [hinner, parts, Node.token?_ofArrivals]
  have hdescription : inner.description = s.description :=
    Node.description_of_items (by simp [hinner, parts])
  have hsteps : inner.steps = s.steps :=
    Node.steps_of_items (by simp [hinner, parts])
  have hexamples : inner.examples = s.examples :=
    Node.examples_of_items (by simp [hinner, parts])
  have hintro : (Node.ofDefinition .scenarioDefinition s.tags inner).introduced? .scenario
      .scenarioLine = some (inner, _) :=
    Node.introduced?_ofDefinition .scenarioDefinition s.tags inner
      (show RuleType.scenario ≠ .tags by decide) hline
  have htags := Node.tags_ofDefinition .scenarioDefinition s.tags inner
  unfold Scenario.ofNode
  simp only [hintro, htags, hdescription, hsteps, hexamples]
  rfl

theorem Scenario.WellFormed.yields_tree {s : Scenario} (h : s.WellFormed True) :
    Forest.Yields [s.tree] [(.scenarioDefinition, .element (.scenario s))] := by
  have hexamples : Forest.Yields (s.examples.map Examples.tree)
      (Value.each .examplesDefinition .examples s.examples) :=
    Forest.Yields.map fun e he => (h.examples e he).yields_tree
  apply ((Forest.yields_introducing .scenarioLine nofun _ _ _).cons
    ((Forest.yields_describing _ h.described).cons
      ((Forest.yields_steps h.steps).append hexamples))).definition s.tags (by decide)
  intro source
  show Fault.lift (.ofElement? .scenario) (Scenario.ofNode (.ofDefinition .scenarioDefinition
    s.tags (.ofArrivals .scenario s.parts))) = _
  rw [s.ofNode_parts]
  rfl

/-! ## §6. Rules and features. -/

theorem Node.scenarios_of_items {n : Node} {scenarios : List Scenario}
    (h : n.items .scenarioDefinition = scenarios.map fun s => .element (.scenario s)) :
    n.scenarios = scenarios := by
  unfold Node.scenarios
  rw [h, Value.reads_scenario?.filterMap_elements]

theorem Node.rules_of_items {n : Node} {rules : List Rule}
    (h : n.items .rule = rules.map fun r => .element (.rule r)) : n.rules = rules := by
  unfold Node.rules
  rw [h, Value.reads_rule?.filterMap_elements]

theorem Node.background?_of_items {n : Node} {background? : Option Background}
    (h : n.items .background = background?.toList.map fun b => .element (.background b)) :
    n.background? = background? := by
  unfold Node.background? Node.first?
  rw [h]
  cases background? <;> rfl

/-- The tree of a child of a rule. -/
def RuleChild.tree : RuleChild → Tree
  | .background b => b.tree
  | .scenario s => s.tree

/-- What the tree of a child of a rule yields. -/
def RuleChild.part : RuleChild → RuleType × Value
  | .background b => (.background, .element (.background b))
  | .scenario s => (.scenarioDefinition, .element (.scenario s))

theorem RuleChild.WellFormed.yields_tree {c : RuleChild} (h : c.WellFormed True) :
    Forest.Yields [c.tree] [c.part] := by
  cases c with
  | background b => exact Background.WellFormed.yields_tree h
  | scenario s => exact Scenario.WellFormed.yields_tree h

/-- The node of the header of a rule. -/
def Rule.header (r : Rule) : Node :=
  .ofArrivals .ruleHeader
    [ (.leaf .ruleLine, .token (.introducing .ruleLine r.location r.keyword r.name)),
      (.description, .text r.description) ]

/-- What arrives at the node of a rule. -/
def Rule.parts (r : Rule) : List (RuleType × Value) :=
  (.ruleHeader, .ofNode r.header) :: r.children.map RuleChild.part

/-- The tree of a rule. -/
def Rule.tree (r : Rule) : Tree :=
  .rule .rule
    (.rule .ruleHeader
      [ .leaf (.introducing .ruleLine r.location r.keyword r.name),
        .describing r.location r.description ] ::
      r.children.map RuleChild.tree)

theorem Rule.yields_header {r : Rule} (h : Described r.description) :
    Forest.Yields
      [.rule .ruleHeader
        [ .leaf (.introducing .ruleLine r.location r.keyword r.name),
          .describing r.location r.description ]]
      [(.ruleHeader, .ofNode r.header)] := by
  apply ((Forest.yields_introducing .ruleLine nofun _ _ _).cons
    (Forest.yields_describing _ h)).rule
  intro source
  exact Node.assemble_generic (show RuleType.ruleHeader ∉ RuleType.assembled by decide) source

theorem Rule.WellFormed.ofNode?_parts {r : Rule} (h : r.WellFormed True) :
    Rule.ofNode? (.ofArrivals .rule r.parts) = some r := by
  obtain ⟨background?, scenarios, hchildren⟩ := h.ordered
  set n := Node.ofArrivals .rule r.parts with hn
  have hparts : r.parts = (.ruleHeader, .ofNode r.header) ::
      (Value.each .background .background background?.toList
        ++ Value.each .scenarioDefinition .scenario scenarios) := by
    simp only [parts, hchildren, List.map_append, List.map_map]
    rfl
  have hline : r.header.token? .ruleLine
      = some (.introducing .ruleLine r.location r.keyword r.name) := by
    rw [header, Node.token?_ofArrivals]
  have hintro : n.introduced? .ruleHeader .ruleLine = some (r.header, _) :=
    Node.introduced?_of_items (by simp [hn, hparts]) hline
  have hdescription : r.header.description = r.description :=
    Node.description_of_items (by simp [header])
  have hbackground : n.background? = background? :=
    Node.background?_of_items (by simp [hn, hparts])
  have hscenarios : n.scenarios = scenarios :=
    Node.scenarios_of_items (by simp [hn, hparts])
  unfold Rule.ofNode?
  rw [hintro, hbackground, hscenarios, ← hchildren]
  show some (Rule.mk r.location r.keyword r.name r.header.description r.children) = some r
  rw [hdescription]

theorem Rule.WellFormed.yields_tree {r : Rule} (h : r.WellFormed True) :
    Forest.Yields [r.tree] [(.rule, .element (.rule r))] := by
  have hchildren : Forest.Yields (r.children.map RuleChild.tree)
      (r.children.map RuleChild.part) :=
    Forest.Yields.map fun c hc => (h.children c hc).yields_tree
  apply ((Rule.yields_header h.described).cons hchildren).rule
  intro source
  show Except.ok (Value.ofElement? .rule (Rule.ofNode? (.ofArrivals .rule r.parts))) = _
  rw [h.ofNode?_parts]
  rfl

/-- The tree of a child of a feature. -/
def FeatureChild.tree : FeatureChild → Tree
  | .background b => b.tree
  | .scenario s => s.tree
  | .rule r => r.tree

/-- What the tree of a child of a feature yields. -/
def FeatureChild.part : FeatureChild → RuleType × Value
  | .background b => (.background, .element (.background b))
  | .scenario s => (.scenarioDefinition, .element (.scenario s))
  | .rule r => (.rule, .element (.rule r))

theorem FeatureChild.WellFormed.yields_tree {c : FeatureChild} (h : c.WellFormed True) :
    Forest.Yields [c.tree] [c.part] := by
  cases c with
  | background b => exact Background.WellFormed.yields_tree h
  | scenario s => exact Scenario.WellFormed.yields_tree h
  | rule r => exact Rule.WellFormed.yields_tree h

/-- The token that introduces a feature; it carries the language. -/
def Feature.line (f : Feature) : Token :=
  { type := .featureLine, location := f.location, keyword := f.keyword, text := f.name
    dialect := some f.language }

/-- The node of the header of a feature. -/
def Feature.header (f : Feature) : Node :=
  .ofArrivals .featureHeader
    [ (.leaf .featureLine, .token f.line),
      (.tags, .ofNode (.ofTags f.tags)),
      (.description, .text f.description) ]

/-- What arrives at the node of a feature. -/
def Feature.parts (f : Feature) : List (RuleType × Value) :=
  (.featureHeader, .ofNode f.header) :: f.children.map FeatureChild.part

/-- The tree of a feature. -/
def Feature.tree (f : Feature) : Tree :=
  .rule .feature
    (.rule .featureHeader
      [.leaf f.line, .tagging f.tags, .describing f.location f.description] ::
      f.children.map FeatureChild.tree)

theorem Feature.yields_header {f : Feature} (h : Described f.description) :
    Forest.Yields
      [.rule .featureHeader
        [.leaf f.line, .tagging f.tags, .describing f.location f.description]]
      [(.featureHeader, .ofNode f.header)] := by
  have hline : Forest.Yields [.leaf f.line] [(.leaf .featureLine, .token f.line)] :=
    Forest.yields_leaf nofun fun _ i hi => by cases hi
  apply (hline.cons ((Forest.yields_tagging f.tags).cons (Forest.yields_describing _ h))).rule
  intro source
  exact Node.assemble_generic (show RuleType.featureHeader ∉ RuleType.assembled by decide) source

theorem Feature.WellFormed.ofNode_parts {f : Feature} (h : f.WellFormed True) :
    Feature.ofNode (.ofArrivals .feature f.parts) = .ok (some f) := by
  obtain ⟨background?, scenarios, rules, hchildren⟩ := h.ordered
  set n := Node.ofArrivals .feature f.parts with hn
  have hparts : f.parts = (.featureHeader, .ofNode f.header) ::
      (Value.each .background .background background?.toList
        ++ Value.each .scenarioDefinition .scenario scenarios
        ++ Value.each .rule .rule rules) := by
    simp only [parts, hchildren, List.map_append, List.map_map]
    rfl
  have hline : f.header.token? .featureLine = some f.line := by
    rw [header, Node.token?_ofArrivals]
  have hintro : n.introduced? .featureHeader .featureLine = some (f.header, _) :=
    Node.introduced?_of_items (by simp [hn, hparts]) hline
  have htags : f.header.tags = .ok f.tags :=
    Node.tags_of_spelled (by simp [header, Node.first?])
  have hdescription : f.header.description = f.description :=
    Node.description_of_items (by simp [header])
  have hbackground : n.background? = background? :=
    Node.background?_of_items (by simp [hn, hparts])
  have hscenarios : n.scenarios = scenarios :=
    Node.scenarios_of_items (by simp [hn, hparts])
  have hrules : n.rules = rules :=
    Node.rules_of_items (by simp [hn, hparts])
  unfold Feature.ofNode
  simp only [hintro, htags, hbackground, hscenarios, hrules, ← hchildren, hdescription]
  rfl

theorem Feature.WellFormed.yields_tree {f : Feature} (h : f.WellFormed True) :
    Forest.Yields [f.tree] [(.feature, .element (.feature f))] := by
  have hchildren : Forest.Yields (f.children.map FeatureChild.tree)
      (f.children.map FeatureChild.part) :=
    Forest.Yields.map fun c hc => (h.children c hc).yields_tree
  apply ((Feature.yields_header h.described).cons hchildren).rule
  intro source
  show Fault.lift (.ofElement? .feature) (Feature.ofNode (.ofArrivals .feature f.parts)) = _
  rw [h.ofNode_parts]
  rfl

/-! ## §7. Documents. -/

/-- The tokens of the comments of a document. -/
def Document.commentLines (d : Document) : List Token := d.comments.map Comment.line

/-- The forest of a document: its comments, then the document itself. -/
def Document.forest (d : Document) : Forest :=
  d.commentLines.map .leaf ++ [.rule .gherkinDocument (d.feature.toList.map Feature.tree)]

theorem Forest.tokens_map_leaf (tokens : List Token) :
    Forest.tokens (tokens.map .leaf) = tokens := by
  induction tokens with
  | nil => rfl
  | cons t rest ih => rw [List.map_cons, tokens_leaf, ih]

theorem Forest.faults_map_leaf (tokens : List Token) :
    Forest.faults (tokens.map .leaf) = [] := by
  induction tokens with
  | nil => rfl
  | cons t rest ih => rw [List.map_cons, faults_leaf, ih]

namespace Document

theorem comments_commentLines (d : Document) :
    Forest.comments (d.commentLines.map .leaf) = d.comments := by
  unfold Forest.comments commentLines
  rw [Forest.tokens_map_leaf, List.filterMap_map]
  exact (List.filterMap_congr fun c _ => rfl).trans List.filterMap_some

namespace WellFormed

variable {d : Document}

theorem yields_features (h : d.WellFormed True) :
    Forest.Yields (d.feature.toList.map Feature.tree)
      (Value.each .feature .feature d.feature.toList) :=
  Forest.Yields.map fun f hf => (h f (Option.mem_toList.1 hf)).yields_tree

theorem fits_forest (h : d.WellFormed True) : ∀ t ∈ d.forest.tokens, t.Fits := by
  intro t ht
  rw [forest, Forest.tokens_append, Forest.tokens_map_leaf] at ht
  rcases List.mem_append.1 ht with ht | ht
  · obtain ⟨c, -, rfl⟩ := List.mem_map.1 ht
    intro _ i hi
    cases hi
  · rw [Forest.tokens_rule, Forest.tokens_nil, List.append_nil] at ht
    exact h.yields_features.fits t ht

theorem faults_forest (h : d.WellFormed True) : d.forest.faults = [] := by
  rw [forest, Forest.faults_append, Forest.faults_map_leaf, Forest.faults_rule,
    h.yields_features.faults]
  rfl

/-- **Reading inverts spelling.** -/
theorem document?_forest (h : d.WellFormed True) : d.forest.document? d.uri [] = some d := by
  have hfront : ∀ t ∈ d.commentLines.map Tree.leaf, t.category ≠ .gherkinDocument := by
    intro t ht
    obtain ⟨token, -, rfl⟩ := List.mem_map.1 ht
    exact nofun
  rw [forest, Forest.document?_split _ _ hfront, h.yields_features.arrivals, Forest.comments_append,
    h.yields_features.comments, d.comments_commentLines, List.append_nil, List.nil_append]
  have hfeature : ((Node.ofArrivals .gherkinDocument
      (Value.each .feature .feature d.feature.toList)).first? .feature).bind Value.feature?
        = d.feature := by
    unfold Node.first?
    rw [Node.items_ofArrivals, Value.arrived_each, if_pos rfl]
    cases d.feature <;> rfl
  rw [hfeature]

end WellFormed

end Document

/-- **Every well-formed document can be built**, and nothing is reported on the way. -/
theorem exists_events_of_wellFormed (d : Document) (h : d.WellFormed True) :
    ∃ events, (Run.ofEvents d.uri false events).outcome
      = .ok { document := some d, errors := [] } := by
  refine ⟨d.forest.events, ?_⟩
  unfold Run.ofEvents
  rw [Builder.run_events _ h.fits_forest]
  show Except.ok (Build.mk (d.forest.document? d.uri []) (d.forest.faults.map Prod.snd)) = _
  rw [h.document?_forest, h.faults_forest]
  rfl

/-- A scenario with both kinds of arguments, tags on two lines and an examples section. -/
def parcelScenario : Scenario :=
  { location := ⟨9, 3⟩, tags := [⟨⟨7, 3⟩, "@slow"⟩, ⟨⟨8, 5⟩, "@net"⟩], keyword := "Scenario Outline"
    name := "weighing", description := "  one line\n\n  and another"
    steps :=
      [ { location := ⟨12, 5⟩, keyword := "Given ", text := "parcels", docString := none
          dataTable := some ⟨⟨13, 7⟩,
            [ ⟨⟨13, 7⟩, [⟨⟨13, 9⟩, "id"⟩, ⟨⟨13, 14⟩, "kg"⟩]⟩,
              ⟨⟨14, 7⟩, [⟨⟨14, 9⟩, "p1"⟩, ⟨⟨14, 14⟩, ""⟩]⟩ ]⟩ },
        { location := ⟨15, 5⟩, keyword := "Then ", text := "a label", dataTable := none
          docString := some ⟨⟨16, 7⟩, "text/plain", "first\nsecond\n", "\"\"\""⟩ } ]
    examples :=
      [ { location := ⟨20, 5⟩, tags := [], keyword := "Examples", name := "", description := ""
          header := some ⟨⟨21, 7⟩, [⟨⟨21, 9⟩, "id"⟩]⟩, body := [⟨⟨22, 7⟩, [⟨⟨22, 9⟩, "p1"⟩]⟩] } ] }

/-- A document with a background, a scenario and a rule. -/
def parcelDocument : Document :=
  { uri := "parcel.feature"
    feature := some
      { location := ⟨2, 1⟩, tags := [⟨⟨1, 1⟩, "@parcel"⟩], language := "en", keyword := "Feature"
        name := "Parcels", description := ""
        children :=
          [ .background
              { location := ⟨4, 3⟩, keyword := "Background", name := "", description := ""
                steps := [] },
            .scenario parcelScenario,
            .rule
              { location := ⟨24, 3⟩, keyword := "Rule", name := "labels", description := "why"
                children := [.scenario parcelScenario] } ] }
    comments := [⟨⟨3, 1⟩, "# about parcels"⟩] }

theorem parcelScenario_wellFormed : parcelScenario.WellFormed True where
  described := described_iff.2 (.inr (by decide))
  steps := by
    intro s hs
    rcases List.mem_pair.1 hs with rfl | rfl
    · refine ⟨.inr rfl, ?_⟩
      rintro t ⟨⟩
      exact ⟨⟨by decide, fun _ => by decide⟩, rfl⟩
    · exact ⟨.inl rfl, nofun⟩
  examples := by
    intro e he
    rw [List.mem_singleton.1 he]
    exact ⟨.inl rfl, ⟨by decide, fun _ => by decide⟩, nofun⟩

theorem exists_events_parcelDocument :
    parcelDocument.WellFormed True
      ∧ ∃ events, (Run.ofEvents "parcel.feature" false events).outcome
          = .ok { document := some parcelDocument, errors := [] } := by
  have hwell : parcelDocument.WellFormed True := by
    rintro f ⟨⟩
    refine ⟨.inl rfl, ⟨some _, [_], [_], rfl⟩, ?_⟩
    intro c hc
    simp only [List.mem_cons, List.not_mem_nil, or_false] at hc
    rcases hc with rfl | rfl | rfl
    · exact ⟨.inl rfl, nofun⟩
    · exact parcelScenario_wellFormed
    · refine ⟨described_iff.2 (.inr (by decide)), ⟨none, [_], rfl⟩, ?_⟩
      intro c hc
      rw [List.mem_singleton.1 hc]
      exact parcelScenario_wellFormed
  exact ⟨hwell, exists_events_of_wellFormed parcelDocument hwell⟩

end Gherkin
