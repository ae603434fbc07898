/-
  Gherkin.Proofs.Refusals
  ───────────────────────
  **WHEN NOTHING CAN BE MADE OF A NODE.**

  A node can hold anything under any category.  Reading it by category drops
  what does not fit, so few things are left that can go wrong.  This module
  tells which, in terms of the children of the node alone:

    • `Node.Ragged` — a table whose rows differ in their number of items,
    • `Node.Refused` — a column out of range in a row of a table or in a tag
      that is read, or a table of examples whose rows are none.

  `Refuses` says that an outcome is a failure, and there is one small lemma on
  it for each way in which outcomes are put together; with them the failures
  of every rule are read off its definition.  `assemble_fails_iff` covers all
  nodes.
-/
import Gherkin.Proofs.Tables

namespace Gherkin

/-! ## §1. Failures of composed outcomes. -/

/-- Whether an outcome is a failure. -/
def Refuses {ε α : Type} (x : Except ε α) : Prop := ∃ e, x = .error e

namespace Refuses

variable {ε α β : Type}

@[simp] theorem ok_iff (a : α) : Refuses (.ok a : Except ε α) ↔ False :=
  iff_of_false nofun id

@[simp] theorem error_iff (e : ε) : Refuses (.error e : Except ε α) ↔ True :=
  iff_of_true ⟨e, rfl⟩ trivial

@[simp] theorem map_iff {f : α → β} {x : Except ε α} : Refuses (x.map f) ↔ Refuses x := by
  cases x <;> simp [Except.map]

theorem unlessFault_iff {a : α} {fault? : Option ε} :
    Refuses (unlessFault a fault?) ↔ ∃ e, fault? = some e := by
  cases fault? <;> simp [unlessFault]

@[simp] theorem checkedMap_iff {f : α → β} {x : Checked α} : Refuses (x.map f) ↔ Refuses x := by
  cases x <;> simp [Checked.map]

@[simp] theorem under_iff {step : PathStep} {x : Checked α} :
    Refuses (x.under step) ↔ Refuses x := by
  cases x <;> simp [Checked.under]

@[simp] theorem about_iff {subject : String} {x : Checked α} :
    Refuses (x.about subject) ↔ Refuses x := by
  cases x <;> simp [Checked.about]

@[simp] theorem pair_iff {x : Checked α} {y : Checked β} :
    Refuses (x.pair y) ↔ Refuses x ∨ Refuses y := by
  cases x <;> cases y <;> simp [Checked.pair]

/-- A list is refused if one of its items is. -/
theorem collect_iff {f : α → Checked β} {items : List α} :
    ∀ n, Refuses (Checked.collect f n items) ↔ ∃ a ∈ items, Refuses (f a) := by
  induction items with
  | nil => simp [Checked.collect]
  | cons a rest ih => simp [Checked.collect, ih]

/-- A second step is taken only if the first one succeeds; a failure of either is one of both. -/
theorem bind_iff {x : Except ε α} {f : α → Except ε β} {p : Prop}
    (h : ∀ a, Refuses (f a) ↔ p) : Refuses (x >>= f) ↔ Refuses x ∨ p := by
  cases x with
  | error e => simp [bind, Except.bind]
  | ok a => simp [bind, Except.bind, h]

end Refuses

/-! ## §2. Reading by category. -/

/-- Whether a value is a row. -/
def Value.IsRow (v : Value) : Prop := ∃ r : TableRow, v = .element (.tableRow r)

theorem TableRow.ofValue_refuses_iff {v : Value} : Refuses (TableRow.ofValue v) ↔ ¬ v.IsRow := by
  unfold Value.IsRow TableRow.ofValue
  split
  next r => simp
  next hrow => simpa [Checked.refuse] using hrow

theorem TableRow.headerOfValue_refuses_iff {v : Value} :
    Refuses (TableRow.headerOfValue v) ↔ v ≠ .null ∧ ¬ v.IsRow := by
  unfold TableRow.headerOfValue
  split
  next => simp
  next hnull =>
    rw [Refuses.checkedMap_iff, ofValue_refuses_iff]
    exact ⟨fun hrow => ⟨hnull, hrow⟩, fun h => h.2⟩

namespace Node

variable {n : Node}

/-- Whether a token with a column out of range is among the children of a line category. -/
def ColumnOutside (n : Node) (type : TokenType) : Prop :=
  ∃ t, .token t ∈ n.items (.leaf type) ∧ ∃ i ∈ t.items, ¬ i.InRange

/-- Whether the first child of a category is a node with a line of its own: the first child of that
line's category is a token. -/
def Introduces (n : Node) (category : RuleType) (type : TokenType) (inner : Node) : Prop :=
  n.first? category = some (.ofNode inner) ∧ ∃ t, inner.first? (.leaf type) = some (.token t)

/-- Whether the first `Tags` child is a node with a column out of range on a tag line. -/
def TagsOutside (n : Node) : Prop :=
  ∃ tagsNode, n.first? .tags = some (.ofNode tagsNode) ∧ tagsNode.ColumnOutside .tagLine

/-- Whether the first `ExamplesTable` child is a list in which something is no row; the first item
may also be null. -/
def RowsAmiss (n : Node) : Prop :=
  ∃ header body, n.first? .examplesTable = some (.list (header :: body))
    ∧ ((header ≠ .null ∧ ¬ header.IsRow) ∨ ∃ v ∈ body, ¬ v.IsRow)

theorem outside_tokens_iff {k : TokenType} : Outside (n.tokens k) ↔ n.ColumnOutside k := by
  simp only [Outside, ColumnOutside, mem_tokens]

theorem exists_introduced?_iff {c : RuleType} {k : TokenType} {inner : Node} :
    (∃ line, n.introduced? c k = some (inner, line)) ↔ n.Introduces c k inner := by
  unfold Introduces
  simp only [introduced?_eq_some_iff, exists_and_left, node?_eq_some_iff, token?_eq_some_iff]

theorem outside_tagLines_iff : Outside n.tagLines ↔ n.TagsOutside := by
  unfold tagLines TagsOutside
  simp only [← node?_eq_some_iff]
  cases n.node? .tags with
  | none => simp [Outside]
  | some tagsNode => simp [outside_tokens_iff]

/-- Tags are refused for a column only. -/
theorem tags_refuses_iff : Refuses n.tags ↔ n.TagsOutside := by
  rw [tags_outcome, Refuses.unlessFault_iff, isSome_firstRejection?_iff, outside_tagLines_iff]

/-- The table of an examples section is refused for what is in it only. -/
theorem splitTable_refuses_iff :
    Refuses (Examples.splitTable (n.first? .examplesTable)) ↔ n.RowsAmiss := by
  unfold RowsAmiss Examples.splitTable
  split
  next header body h =>
    simp [h, Refuses.collect_iff, TableRow.ofValue_refuses_iff,
      TableRow.headerOfValue_refuses_iff]
  next hlist =>
    refine iff_of_false (by simp) ?_
    rintro ⟨header, body, h, -⟩
    exact hlist header body h

/-! ## §3. Failures of rules. -/

theorem scenario_refuses_iff :
    Refuses (Scenario.ofNode n)
      ↔ ∃ inner, n.Introduces .scenario .scenarioLine inner ∧ n.TagsOutside := by
  unfold Scenario.ofNode
  simp only [← exists_introduced?_iff]
  rcases n.introduced? .scenario .scenarioLine with _ | ⟨inner, line⟩
  · simp
  · simp [tags_refuses_iff]

theorem feature_refuses_iff :
    Refuses (Feature.ofNode n)
      ↔ ∃ header, n.Introduces .featureHeader .featureLine header ∧ header.TagsOutside := by
  unfold Feature.ofNode
  simp only [← exists_introduced?_iff]
  rcases n.introduced? .featureHeader .featureLine with _ | ⟨header, line⟩
  · simp
  · simp [tags_refuses_iff]

theorem examples_refuses_iff :
    Refuses (Examples.ofNode n) ↔ ∃ inner, n.Introduces .examples .examplesLine inner
      ∧ (n.TagsOutside ∨ inner.RowsAmiss) := by
  unfold Examples.ofNode
  simp only [← exists_introduced?_iff]
  rcases n.introduced? .examples .examplesLine with _ | ⟨inner, line⟩
  · simp
  · -- the tags are read before the rows, but either is enough for a refusal
    refine (Refuses.bind_iff (p := inner.RowsAmiss) fun tags => ?_).trans ?_
    · refine (Refuses.bind_iff (p := False) fun _ => Refuses.ok_iff _).trans ?_
      rw [or_false, Refuses.about_iff, splitTable_refuses_iff]
    · simp [tags_refuses_iff]

/-- A table whose columns are in range and whose rows differ in their number of items. -/
structure Ragged (n : Node) : Prop where
  table : n.type.IsTable
  inside : ¬ n.ColumnOutside .tableRow
  uneven : ∃ s t, .token s ∈ n.items (.leaf .tableRow) ∧ .token t ∈ n.items (.leaf .tableRow)
    ∧ s.items.length ≠ t.items.length

/-- The ways in which a node can be refused. -/
@[mk_iff]
inductive Refused (n : Node) : Prop
  /-- A column of a row of a table. -/
  | columns (htable : n.type.IsTable) (houtside : n.ColumnOutside .tableRow)
  /-- A column of a tag of a feature; the tags hang off its header. -/
  | featureTags {header : Node} (hfeature : n.type = .feature)
      (hheader : n.Introduces .featureHeader .featureLine header) (houtside : header.TagsOutside)
  /-- A column of a tag of a scenario; the tags hang off the definition. -/
  | scenarioTags {inner : Node} (hdefinition : n.type = .scenarioDefinition)
      (hinner : n.Introduces .scenario .scenarioLine inner) (houtside : n.TagsOutside)
  /-- A column of a tag of an examples section; the tags hang off the definition. -/
  | examplesTags {inner : Node} (hdefinition : n.type = .examplesDefinition)
      (hinner : n.Introduces .examples .examplesLine inner) (houtside : n.TagsOutside)
  /-- What stands for the rows of an examples section. -/
  | examplesRows {inner : Node} (hdefinition : n.type = .examplesDefinition)
      (hinner : n.Introduces .examples .examplesLine inner) (hrows : inner.RowsAmiss)

/-- Outcomes that are lifted are rejected when they fail. -/
theorem lift_rejected_iff {α : Type} {f : α → Value} {x : Except Rejection α} :
    (∃ r, Fault.lift f x = .error (.rejected r)) ↔ Refuses x := by
  cases x <;> simp [Fault.lift]

/-- The rows of a table and what is said of its tokens. -/
theorem raggedRows_tokens_iff {k : TokenType} :
    RaggedRows (n.tokens k) ↔ ∃ s t, .token s ∈ n.items (.leaf k) ∧ .token t ∈ n.items (.leaf k)
      ∧ s.items.length ≠ t.items.length := by
  unfold RaggedRows
  simp only [mem_tokens]
  constructor
  · rintro ⟨s, hs, t, ht, hne⟩
    exact ⟨s, t, hs, ht, hne⟩
  · rintro ⟨s, t, hs, ht, hne⟩
    exact ⟨s, hs, t, ht, hne⟩

/-- **A table** is refused for a column, and otherwise ragged if its rows are. -/
theorem assemble_table_fails_iff {wrap : List TableRow → Value}
    (h : n.type.tableValue? = some wrap) (source : Source) :
    ((∃ l kept, n.assemble source = .error (.ragged l kept))
        ↔ ¬ n.ColumnOutside .tableRow ∧ RaggedRows (n.tokens .tableRow))
      ∧ ((∃ r, n.assemble source = .error (.rejected r)) ↔ n.ColumnOutside .tableRow) := by
  rw [assemble_table h, tableRows_outcome, ← outside_tokens_iff, ← isSome_firstRejection?_iff]
  -- numbers of items are compared only when no column is out of range
  cases hfirst : firstRejection? (n.tokens .tableRow) with
  | some r => simp [Fault.map]
  | none =>
      cases hragged : raggedToken? (n.tokens .tableRow) with
      | none => simp [raggedToken?_eq_none_iff.1 hragged]
      | some t =>
          have hrows : RaggedRows (n.tokens .tableRow) := by
            by_contra hrows
            cases hragged.symm.trans (raggedToken?_eq_none_iff.2 hrows)
          simp [Fault.map, hrows]

/-- **Any other rule** is refused for the tags or the rows that it reads. -/
theorem assemble_rejected_iff (h : n.type.tableValue? = none) (uri : String)
    (comments : List Comment) :
    (∃ r, n.assemble (.of uri comments) = .error (.rejected r)) ↔ n.Refused := by
  rw [refused_iff]
  -- three rules read tags, one of them rows as well; the others have nothing that could fail
  cases htype : n.type
  case dataTable | examplesTable =>
    rw [htype] at h
    cases h
  case gherkinDocument =>
    rw [assemble_gherkinDocument htype]
    simp [RuleType.IsTable]
  case scenarioDefinition =>
    simp only [assemble, htype, lift_rejected_iff, scenario_refuses_iff]
    simp [RuleType.IsTable]
  case examplesDefinition =>
    simp only [assemble, htype, lift_rejected_iff, examples_refuses_iff]
    simp [RuleType.IsTable, and_or_left, exists_or]
  case feature =>
    simp only [assemble, htype, lift_rejected_iff, feature_refuses_iff]
    simp [RuleType.IsTable]
  all_goals
    simp [assemble, htype, RuleType.IsTable]

end Node

/-! ## §4. Any node. -/

/-- **Assembling any node fails exactly** as a ragged table or by one of the refusals; in all other
cases there is a value, whatever the children are. -/
theorem assemble_fails_iff (uri : String) (comments : List Comment) (n : Node) :
    ((∃ l kept, n.assemble (.of uri comments) = .error (.ragged l kept)) ↔ n.Ragged)
      ∧ ((∃ r, n.assemble (.of uri comments) = .error (.rejected r)) ↔ n.Refused)
      ∧ ((∃ v, n.assemble (.of uri comments) = .ok v) ↔ ¬ n.Ragged ∧ ¬ n.Refused) := by
  have hfaults :
      ((∃ l kept, n.assemble (.of uri comments) = .error (.ragged l kept)) ↔ n.Ragged)
        ∧ ((∃ r, n.assemble (.of uri comments) = .error (.rejected r)) ↔ n.Refused) := by
    cases htable : n.type.tableValue? with
    | some wrap =>
        have htype : n.type.IsTable := RuleType.isTable_iff.2 ⟨wrap, htable⟩
        obtain ⟨hragged, hrejected⟩ := Node.assemble_table_fails_iff htable (.of uri comments)
        rw [hragged, hrejected, Node.raggedRows_tokens_iff]
        refine ⟨⟨fun h => ⟨htype, h.1, h.2⟩, fun h => ⟨h.inside, h.uneven⟩⟩, .columns htype, ?_⟩
        -- none of the other refusals is about tables
        intro hrefused
        cases hrefused with
        | columns _ houtside => exact houtside
        | featureTags h | scenarioTags h | examplesTags h | examplesRows h =>
            rw [h] at htable
            cases htable
    | none =>
        refine ⟨iff_of_false ?_ ?_, Node.assemble_rejected_iff htable uri comments⟩
        · rintro ⟨l, kept, h⟩
          exact Node.assemble_ne_ragged htable _ l kept h
        · intro h
          obtain ⟨wrap, hwrap⟩ := RuleType.isTable_iff.1 h.table
          cases htable.symm.trans hwrap
  obtain ⟨hragged, hrefused⟩ := hfaults
  refine ⟨hragged, hrefused, ?_⟩
  -- there is no fault besides these two
  rw [← hragged, ← hrefused]
  cases n.assemble (.of uri comments) with
  | ok v => simp
  | error fault => cases fault <;> simp

/-- A node with a tag line whose one column is below zero. -/
def lowTags : Node :=
  ⟨.tags,
    [(.leaf .tagLine,
      [.token { type := .tagLine, location := ⟨1, 1⟩, items := [⟨-1, "@a"⟩] }])]⟩

/-- A node with an examples line whose rows are null and a text. -/
def strayExamples : Node :=
  ⟨.examples,
    [ (.leaf .examplesLine, [.token { type := .examplesLine, location := ⟨2, 1⟩ }]),
      (.examplesTable, [.list [.null, .text "row"]]) ]⟩

/-- A definition around it whose first `Tags` child is a text. -/
def strayDefinition : Node :=
  ⟨.examplesDefinition,
    [(.tags, [.text "@a", .ofNode lowTags]), (.examples, [.ofNode strayExamples])]⟩

/-- A rule with such tags at its header and at itself; they are never read. -/
def taggedRule : Node :=
  ⟨.rule,
    [ (.tags, [.ofNode lowTags]),
      (.ruleHeader, [.node .ruleHeader
        [ (.tags, [.ofNode lowTags]),
          (.leaf .ruleLine, [.token { type := .ruleLine, location := ⟨2, 1⟩ }]) ]]) ]⟩

theorem assemble_strayDefinition_taggedRule :
    (∃ r, strayDefinition.assemble (.of "" []) = .error (.rejected r))
      ∧ ¬ strayDefinition.TagsOutside
      ∧ (∃ v, taggedRule.assemble (.of "" []) = .ok v) ∧ taggedRule.TagsOutside := by
  have hlow : lowTags.ColumnOutside .tagLine :=
    ⟨_, List.mem_singleton_self _, _, List.mem_singleton_self _, by decide⟩
  have hrows : strayExamples.RowsAmiss :=
    ⟨.null, [.text "row"], rfl, .inr ⟨_, List.mem_singleton_self _, nofun⟩⟩
  refine ⟨?_, ?_, ?_, lowTags, rfl, hlow⟩
  · exact (assemble_fails_iff "" [] strayDefinition).2.1.2
      (.examplesRows rfl ⟨rfl, _, rfl⟩ hrows)
  · rintro ⟨tagsNode, htags, -⟩
    cases htags
  · refine (assemble_fails_iff "" [] taggedRule).2.2.2 ⟨?_, ?_⟩
    · exact fun h => absurd h.table (by decide)
    · intro h
      cases h with
      | columns htable => exact absurd htable (by decide)
      | featureTags h | scenarioTags h | examplesTags h | examplesRows h => cases h

end Gherkin
