/-
  Gherkin.Proofs.Reading
  ──────────────────────
  **EVERY PRODUCTION KEEPS WHAT ITS PARTS SAY.**

  A rule that follows the grammar is closed on a node whose values are spread
  over the parts of its production.  One lemma per production says that the
  value made of the node says the same marks in the same order:

    • `Node.line_of_shown`, `description_of_shown`, … — how one part is read,
    • `Step.ofNode?_of_spread`, …                     — one production each,
    • `Node.shows_of_spread`                          — all of them.

  Columns have to fit, or a tag or a cell is refused; that tables are ragged
  does not matter, since all rows are kept.
-/
import Gherkin.Proofs.Marks

namespace Gherkin

/-! ## §1. Reading one part. -/

namespace Value

variable {r : RuleType} {vs : List Value} {ms : List Mark}

theorem ShowAll.optional (h : ShowAll r vs ms) (hlength : vs.length ≤ 1) :
    (vs = [] ∧ ms = []) ∨ ∃ v, vs = [v] ∧ v.Shows r ms := by
  match vs, h with
  | [], h => exact .inl ⟨rfl, h⟩
  | [v], ⟨own, rest, hv, hms, hrest⟩ =>
      rw [show rest = [] from hrest, List.append_nil] at hms
      exact .inr ⟨v, rfl, hms ▸ hv⟩
  | _ :: _ :: _, _ =>
      simp only [List.length_cons] at hlength
      omega

theorem ShowAll.one (h : ShowAll r vs ms) (hlength : vs.length = 1) :
    ∃ v, vs = [v] ∧ v.Shows r ms := by
  rcases h.optional (by omega) with ⟨rfl, -⟩ | hone
  · cases hlength
  · exact hone

/-- Values that are all read say what is read. -/
theorem ShowAll.flatMap {α : Type} {read : Value → Option α} {marks : α → List Mark}
    (hread : ∀ v ms, v.Shows r ms → ∃ a, read v = some a ∧ ms = marks a)
    (h : ShowAll r vs ms) : ms = (vs.filterMap read).flatMap marks := by
  induction vs generalizing ms with
  | nil => exact h
  | cons v vs ih =>
      obtain ⟨own, rest, hv, rfl, hrest⟩ := h
      obtain ⟨a, ha, rfl⟩ := hread v own hv
      rw [List.filterMap_cons, ha, ih hrest]
      rfl

end Value

namespace Node

variable {n : Node} {ms : List Mark}

theorem one_of_shown {c : RuleType} (h : Part.Shown n.items (c, .one) ms) :
    ∃ v, n.items c = [v] ∧ v.Shows c ms :=
  h.2.one h.1

theorem optional_of_shown {c : RuleType} (h : Part.Shown n.items (c, .optional) ms) :
    (n.items c = [] ∧ ms = []) ∨ ∃ v, n.items c = [v] ∧ v.Shows c ms :=
  h.2.optional h.1

theorem some_of_shown {c : RuleType} (h : Part.Shown n.items (c, .some) ms) :
    1 ≤ (n.items c).length ∧ Value.ShowAll c (n.items c) ms := h

theorem line_of_shown {k : TokenType} (h : Part.Shown n.items (.leaf k, .one) ms) :
    ∃ line, n.token? k = some line ∧ line.type = k ∧ ms = line.marks := by
  obtain ⟨v, hv, t, rfl, htype, rfl⟩ := one_of_shown h
  exact ⟨t, token?_of_items hv, htype, rfl⟩

theorem description_of_shown (h : Part.Shown n.items (.description, .optional) ms) :
    ms = Mark.describe n.description := by
  unfold description first?
  rcases optional_of_shown h with ⟨hv, rfl⟩ | ⟨v, hv, s, rfl, rfl⟩
  · rw [hv]
    exact (if_pos rfl).symm
  · rw [hv]
    rfl

theorem tags_of_shown (h : Part.Shown n.items (.tags, .optional) ms) : ms = n.tagMarks := by
  unfold tagMarks tagLines
  rcases optional_of_shown h with ⟨hv, rfl⟩ | ⟨v, hv, inner, rfl, rfl⟩
  · unfold node? first?
    rw [hv]
    rfl
  · rw [node?_of_items hv]

/-- Values of a repeated part, all of them read. -/
theorem read_of_many {α : Type} {c : RuleType} (read : Value → Option α) {marks : α → List Mark}
    (hread : ∀ v ms, v.Shows c ms → ∃ a, read v = some a ∧ ms = marks a)
    (h : Part.Shown n.items (c, .many) ms) : ms = ((n.items c).filterMap read).flatMap marks :=
  h.2.flatMap hread

/-- The value of an optional part, if there is one. -/
theorem read_of_optional {α : Type} {c : RuleType} (read : Value → Option α)
    {marks : α → List Mark} (hread : ∀ v ms, v.Shows c ms → ∃ a, read v = some a ∧ ms = marks a)
    (h : Part.Shown n.items (c, .optional) ms) :
    ms = ((n.first? c).bind read).toList.flatMap marks := by
  unfold first?
  rcases optional_of_shown h with ⟨hv, rfl⟩ | ⟨v, hv, hshows⟩
  · rw [hv]
    rfl
  · obtain ⟨a, ha, rfl⟩ := hread v ms hshows
    rw [hv]
    show _ = (read v).toList.flatMap marks
    rw [ha]
    exact (List.append_nil _).symm

/-- The rows of a table: there is at least one. -/
theorem rows_of_shown (h : Part.Shown n.items (.leaf .tableRow, .some) ms) :
    ms = ((n.tokens .tableRow).map Token.row).map .row ∧ n.tokens .tableRow ≠ [] := by
  obtain ⟨hlength, hshown⟩ := some_of_shown h
  have hread : ∀ (v : Value) ms, v.Shows (.leaf .tableRow) ms →
      ∃ t : Token, v.token? = some t ∧ ms = [Mark.row t.row] := by
    rintro v ms ⟨t, rfl, htype, rfl⟩
    refine ⟨t, rfl, ?_⟩
    unfold Token.marks
    rw [htype]
  refine ⟨?_, ?_⟩
  · rw [List.map_map, List.map_eq_flatMap]
    exact hshown.flatMap hread
  · unfold tokens
    cases hitems : n.items (.leaf .tableRow) with
    | nil =>
        rw [hitems] at hlength
        cases hlength
    | cons v vs =>
        rw [hitems] at hshown
        obtain ⟨_, _, ⟨t, rfl, -⟩, -⟩ := hshown
        exact List.cons_ne_nil t _

theorem tagLines_of_shown (h : Part.Shown n.items (.leaf .tagLine, .some) ms) :
    ms = ((n.tokens .tagLine).flatMap Token.tags).map .tag := by
  rw [List.map_flatMap]
  apply h.2.flatMap
  rintro v ms ⟨t, rfl, htype, rfl⟩
  refine ⟨t, rfl, ?_⟩
  unfold Token.marks
  rw [htype]

/-- The header and the body of the table in an examples section are its rows. -/
theorem table_of_shown (h : Part.Shown n.items (.examplesTable, .optional) ms) :
    ∃ rows : List TableRow, Examples.splitTable (n.first? .examplesTable)
      = .ok (rows.head?, rows.tail) ∧ ms = rows.map .row := by
  unfold first?
  rcases optional_of_shown h with ⟨hv, rfl⟩ | ⟨v, hv, rows, rfl, rfl⟩
  · rw [hv]
    exact ⟨[], rfl, rfl⟩
  · rw [hv]
    exact ⟨rows, Examples.splitTable_ofRows rows, rfl⟩

theorem steps_of_shown (h : Part.Shown n.items (.step, .many) ms) :
    ms = n.steps.flatMap Step.marks := by
  apply read_of_many Value.step? _ h
  rintro v ms ⟨s, rfl, rfl⟩
  exact ⟨s, rfl, rfl⟩

theorem scenarios_of_shown (h : Part.Shown n.items (.scenarioDefinition, .many) ms) :
    ms = n.scenarios.flatMap Scenario.marks := by
  apply read_of_many Value.scenario? _ h
  rintro v ms ⟨s, rfl, rfl⟩
  exact ⟨s, rfl, rfl⟩

theorem examples_of_shown (h : Part.Shown n.items (.examplesDefinition, .many) ms) :
    ms = n.examples.flatMap Examples.marks := by
  apply read_of_many Value.examples? _ h
  rintro v ms ⟨e, rfl, rfl⟩
  exact ⟨e, rfl, rfl⟩

theorem rules_of_shown (h : Part.Shown n.items (.rule, .many) ms) :
    ms = n.rules.flatMap Rule.marks := by
  apply read_of_many Value.rule? _ h
  rintro v ms ⟨r, rfl, rfl⟩
  exact ⟨r, rfl, rfl⟩

theorem background_of_shown (h : Part.Shown n.items (.background, .optional) ms) :
    ms = n.background?.toList.flatMap Background.marks := by
  apply read_of_optional Value.background? _ h
  rintro v ms ⟨b, rfl, rfl⟩
  exact ⟨b, rfl, rfl⟩

end Node

/-! ## §2. One production each. -/

variable {n : Node} {ms : List Mark}

/-- The mark of a keyword line other than that of a feature. -/
theorem Token.marks_line {t : Token} {k : TokenType} (h : t.type = k)
    (hk : k ∈ [TokenType.ruleLine, .backgroundLine, .scenarioLine, .examplesLine, .stepLine]) :
    t.marks = [.line k t.location t.keyword t.text] := by
  subst h
  unfold marks
  cases htype : t.type <;> rw [htype] at hk <;> first | rfl | exact absurd hk (by decide)

theorem Token.marks_featureLine {t : Token} (h : t.type = .featureLine) :
    t.marks = [.line .featureLine t.location t.keyword t.text, .language (t.dialect.getD "")] := by
  unfold marks
  rw [h]

theorem Background.ofNode?_of_spread (h : Spread .background n.items
      [(.leaf .backgroundLine, .one), (.description, .optional), (.step, .many)] ms) :
    ∃ b, Background.ofNode? n = some b ∧ ms = b.marks := by
  obtain ⟨_, _, hline, rfl, _, _, htext, rfl, _, _, hsteps, rfl, rfl⟩ := h
  obtain ⟨line, hfound, htype, rfl⟩ := Node.line_of_shown hline
  obtain rfl := Node.description_of_shown htext
  obtain rfl := Node.steps_of_shown hsteps
  refine ⟨_, by unfold Background.ofNode?; rw [hfound]; rfl, ?_⟩
  rw [Token.marks_line htype (by decide)]
  simp only [RuleType.kept, Background.marks, List.cons_append, List.nil_append, List.append_nil]

/-- A step has a data table or a doc string, but not both. -/
theorem Step.ofNode?_of_spread {parts : List Part} (hparts : parts ∈ RuleType.alternatives .step)
    (hothers : ∀ c, c ∉ parts.map Prod.fst → c ∈ [RuleType.dataTable, .docString] → n.items c = [])
    (h : Spread .step n.items parts ms) : ∃ s, Step.ofNode? n = some s ∧ ms = s.marks := by
  have htables : ∀ own, Part.Shown n.items (.dataTable, .optional) own →
      own = ((n.first? .dataTable).bind Value.dataTable?).toList.flatMap DataTable.marks := by
    intro own hown
    apply Node.read_of_optional Value.dataTable? _ hown
    rintro v ms ⟨t, rfl, rfl⟩
    exact ⟨t, rfl, rfl⟩
  have hstrings : ∀ own, Part.Shown n.items (.docString, .optional) own →
      own = ((n.first? .docString).bind Value.docString?).toList.flatMap DocString.marks := by
    intro own hown
    apply Node.read_of_optional Value.docString? _ hown
    rintro v ms ⟨d, rfl, rfl⟩
    exact ⟨d, rfl, rfl⟩
  -- the alternative that was not taken leaves its category empty
  have hnone : ∀ c, n.items c = [] → n.first? c = none := by
    intro c hc
    unfold Node.first?
    rw [hc]
    rfl
  rcases List.mem_pair.1 hparts with rfl | rfl
  · obtain ⟨_, _, hline, rfl, _, _, htable, rfl, rfl⟩ := h
    obtain ⟨line, hfound, htype, rfl⟩ := Node.line_of_shown hline
    obtain rfl := htables _ htable
    have hstring : n.first? .docString = none :=
      hnone _ (hothers .docString (by decide) (by decide))
    refine ⟨_, by unfold Step.ofNode?; rw [hfound]; rfl, ?_⟩
    rw [Token.marks_line htype (by decide), hstring]
    simp [RuleType.kept, Step.marks]
  · obtain ⟨_, _, hline, rfl, _, _, hstring, rfl, rfl⟩ := h
    obtain ⟨line, hfound, htype, rfl⟩ := Node.line_of_shown hline
    obtain rfl := hstrings _ hstring
    have htable : n.first? .dataTable = none :=
      hnone _ (hothers .dataTable (by decide) (by decide))
    refine ⟨_, by unfold Step.ofNode?; rw [hfound]; rfl, ?_⟩
    rw [Token.marks_line htype (by decide), htable]
    simp [RuleType.kept, Step.marks]

theorem Scenario.ofNode_of_spread (hn : n.Promised Token.Fits)
    (h : Spread .scenarioDefinition n.items [(.tags, .optional), (.scenario, .one)] ms) :
    ∃ s, Scenario.ofNode n = .ok (some s) ∧ ms = s.marks := by
  obtain ⟨_, _, htags, rfl, _, _, hinner, rfl, rfl⟩ := h
  obtain rfl := Node.tags_of_shown htags
  obtain ⟨v, hv, inner, line, rfl, hline, htype, rfl⟩ := Node.one_of_shown hinner
  have hintro : n.introduced? .scenario .scenarioLine = some (inner, line) :=
    Node.introduced?_of_items hv hline
  refine ⟨_, by unfold Scenario.ofNode; rw [hintro, hn.tags_eq]; rfl, ?_⟩
  rw [Token.marks_line htype (by decide)]
  simp [RuleType.kept, Scenario.marks, Node.tagMarks]

theorem Examples.ofNode_of_spread (hn : n.Promised Token.Fits)
    (h : Spread .examplesDefinition n.items [(.tags, .optional), (.examples, .one)] ms) :
    ∃ e, Examples.ofNode n = .ok (some e) ∧ ms = e.marks := by
  obtain ⟨_, _, htags, rfl, _, _, hinner, rfl, rfl⟩ := h
  obtain rfl := Node.tags_of_shown htags
  obtain ⟨v, hv, inner, line, rows, rfl, hline, htype, hsplit, rfl⟩ := Node.one_of_shown hinner
  have hintro : n.introduced? .examples .examplesLine = some (inner, line) :=
    Node.introduced?_of_items hv hline
  refine ⟨_, by unfold Examples.ofNode; simp only [hintro, hn.tags_eq, hsplit]; rfl, ?_⟩
  rw [Token.marks_line htype (by decide)]
  cases rows <;> simp [RuleType.kept, Examples.marks, Node.tagMarks]

theorem Rule.ofNode?_of_spread (h : Spread .rule n.items
      [(.ruleHeader, .one), (.background, .optional), (.scenarioDefinition, .many)] ms) :
    ∃ r, Rule.ofNode? n = some r ∧ ms = r.marks := by
  obtain ⟨_, _, hheader, rfl, _, _, hbackground, rfl, _, _, hscenarios, rfl, rfl⟩ := h
  obtain rfl := Node.background_of_shown hbackground
  obtain rfl := Node.scenarios_of_shown hscenarios
  obtain ⟨v, hv, header, line, rfl, hline, htype, rfl⟩ := Node.one_of_shown hheader
  have hintro : n.introduced? .ruleHeader .ruleLine = some (header, line) :=
    Node.introduced?_of_items hv hline
  refine ⟨_, by unfold Rule.ofNode?; rw [hintro]; rfl, ?_⟩
  rw [Token.marks_line htype (by decide)]
  simp [RuleType.kept, Rule.marks, RuleChild.marks, List.flatMap_map]

theorem Feature.ofNode_of_spread (hn : n.Promised Token.Fits) (h : Spread .feature n.items
      [(.featureHeader, .one), (.background, .optional), (.scenarioDefinition, .many),
        (.rule, .many)] ms) :
    ∃ f, Feature.ofNode n = .ok (some f) ∧ ms = f.marks := by
  obtain ⟨_, _, hheader, rfl, _, _, hbackground, rfl, _, _, hscenarios, rfl, _, _, hrules, rfl,
    rfl⟩ := h
  obtain rfl := Node.background_of_shown hbackground
  obtain rfl := Node.scenarios_of_shown hscenarios
  obtain rfl := Node.rules_of_shown hrules
  obtain ⟨v, hv, header, line, rfl, hline, htype, rfl⟩ := Node.one_of_shown hheader
  have hintro : n.introduced? .featureHeader .featureLine = some (header, line) :=
    Node.introduced?_of_items hv hline
  have htags : header.tags = .ok (header.tagLines.flatMap Token.tags) :=
    (hn.introduced hintro).tags_eq
  refine ⟨_, by unfold Feature.ofNode; rw [hintro]; simp only [htags]; rfl, ?_⟩
  rw [Token.marks_featureLine htype]
  simp [RuleType.kept, Feature.marks, FeatureChild.marks, Node.tagMarks, List.flatMap_map]

theorem Document.ofNode_of_spread (uri : String) (comments : List Comment)
    (h : Spread .gherkinDocument n.items [(.feature, .optional)] ms) :
    ∃ d, Document.ofNode (.of uri comments) n = .ok d ∧ ms = d.marks := by
  obtain ⟨own, _, hfeature, rfl, rfl⟩ := h
  have hown : own = ((n.first? .feature).bind Value.feature?).toList.flatMap Feature.marks := by
    apply Node.read_of_optional Value.feature? _ hfeature
    rintro v ms ⟨f, rfl, rfl⟩
    exact ⟨f, rfl, rfl⟩
  obtain rfl := hown
  exact ⟨_, Document.ofNode_of uri comments n, List.append_nil _⟩

/-! ## §3. All productions. -/

namespace Node

theorem filed?_generic {type : RuleType} (h : type ∉ RuleType.assembled)
    (children : Grouped RuleType Value) (source : Source) :
    filed? source ⟨type, children⟩ = some (.ofNode ⟨type, children⟩) :=
  filed?_of_ok (assemble_generic h source)

/-- **A production keeps what its parts say.**  Descriptions and doc strings are made of all their
lines at once; they are not of this kind. -/
theorem shows_of_spread {type : RuleType} (htype : n.type = type) (hn : n.Promised Token.Fits)
    {parts : List Part} (hparts : parts ∈ type.alternatives)
    (htext : ¬ (type = .description ∨ type = .docString))
    (hothers : ∀ c, c ∉ parts.map Prod.fst → c ∈ [RuleType.dataTable, .docString] → n.items c = [])
    (h : Spread type n.items parts ms) (uri : String) (comments : List Comment) :
    ∃ v, n.filed? (.of uri comments) = some v ∧ v.Shows type ms := by
  obtain ⟨own, children⟩ := n
  obtain rfl : own = type := htype
  cases own with
  | root | leaf | stepArg | descriptionHelper => cases hparts
  | description => exact absurd (.inl rfl) htext
  | docString => exact absurd (.inr rfl) htext
  | step =>
      obtain ⟨s, hs, rfl⟩ := Step.ofNode?_of_spread hparts hothers h
      refine ⟨.element (.step s), ?_, s, rfl, rfl⟩
      show left? (.ok (.ofElement? .step (Step.ofNode? _))) = _
      rw [hs]
      rfl
  | background =>
      obtain rfl := List.mem_singleton.1 hparts
      obtain ⟨b, hb, rfl⟩ := Background.ofNode?_of_spread h
      refine ⟨.element (.background b), ?_, b, rfl, rfl⟩
      show left? (.ok (.ofElement? .background (Background.ofNode? _))) = _
      rw [hb]
      rfl
  | scenarioDefinition =>
      obtain rfl := List.mem_singleton.1 hparts
      obtain ⟨s, hs, rfl⟩ := Scenario.ofNode_of_spread hn h
      refine ⟨.element (.scenario s), ?_, s, rfl, rfl⟩
      show left? (Fault.lift (.ofElement? .scenario) (Scenario.ofNode _)) = _
      rw [hs]
      rfl
  | examplesDefinition =>
      obtain rfl := List.mem_singleton.1 hparts
      obtain ⟨e, he, rfl⟩ := Examples.ofNode_of_spread hn h
      refine ⟨.element (.examples e), ?_, e, rfl, rfl⟩
      show left? (Fault.lift (.ofElement? .examples) (Examples.ofNode _)) = _
      rw [he]
      rfl
  | rule =>
      obtain rfl := List.mem_singleton.1 hparts
      obtain ⟨r, hr, rfl⟩ := Rule.ofNode?_of_spread h
      refine ⟨.element (.rule r), ?_, r, rfl, rfl⟩
      show left? (.ok (.ofElement? .rule (Rule.ofNode? _))) = _
      rw [hr]
      rfl
  | feature =>
      obtain rfl := List.mem_singleton.1 hparts
      obtain ⟨f, hf, rfl⟩ := Feature.ofNode_of_spread hn h
      refine ⟨.element (.feature f), ?_, f, rfl, rfl⟩
      show left? (Fault.lift (.ofElement? .feature) (Feature.ofNode _)) = _
      rw [hf]
      rfl
  | gherkinDocument =>
      obtain rfl := List.mem_singleton.1 hparts
      obtain ⟨d, hd, rfl⟩ := Document.ofNode_of_spread uri comments h
      refine ⟨.element (.document d), ?_, d, rfl, rfl⟩
      show left? (Fault.lift _ (Document.ofNode _ _)) = _
      rw [hd]
      rfl
  | dataTable =>
      obtain rfl := List.mem_singleton.1 hparts
      obtain ⟨_, _, hrows, rfl, rfl⟩ := h
      obtain ⟨rfl, hne⟩ := rows_of_shown hrows
      refine ⟨_, hn.filed_table rfl _, ?_⟩
      -- a data table takes its place from its first row, so there has to be one
      cases hrows : (tokens .tableRow ⟨.dataTable, children⟩).map Token.row with
      | nil => exact absurd (List.map_eq_nil_iff.1 hrows) hne
      | cons first rest => exact ⟨⟨first.location, first :: rest⟩, rfl, List.append_nil _⟩
  | examplesTable =>
      obtain rfl := List.mem_singleton.1 hparts
      obtain ⟨_, _, hrows, rfl, rfl⟩ := h
      obtain ⟨rfl, -⟩ := rows_of_shown hrows
      exact ⟨_, hn.filed_table rfl _, _, rfl, List.append_nil _⟩
  | tags =>
      obtain rfl := List.mem_singleton.1 hparts
      obtain ⟨_, _, hlines, rfl, rfl⟩ := h
      obtain rfl := tagLines_of_shown hlines
      exact ⟨_, filed?_generic (by decide) children _, _, rfl, List.append_nil _⟩
  | featureHeader =>
      obtain rfl := List.mem_singleton.1 hparts
      obtain ⟨_, _, htags, rfl, _, _, hline, rfl, _, _, hlines, rfl, rfl⟩ := h
      obtain rfl := tags_of_shown htags
      obtain ⟨line, hfound, hkind, rfl⟩ := line_of_shown hline
      obtain rfl := description_of_shown hlines
      refine ⟨_, filed?_generic (by decide) children _, _, line, rfl, hfound, hkind, ?_⟩
      simp only [RuleType.kept, List.append_nil]
  | ruleHeader =>
      obtain rfl := List.mem_singleton.1 hparts
      -- the tags have no place in the rule; `RuleType.kept` has left them out
      obtain ⟨_, _, htags, rfl, _, _, hline, rfl, _, _, hlines, rfl, rfl⟩ := h
      obtain ⟨line, hfound, hkind, rfl⟩ := line_of_shown hline
      obtain rfl := description_of_shown hlines
      refine ⟨_, filed?_generic (by decide) children _, _, line, rfl, hfound, hkind, ?_⟩
      simp only [RuleType.kept, List.append_nil]
  | scenario =>
      obtain rfl := List.mem_singleton.1 hparts
      obtain ⟨_, _, hline, rfl, _, _, hlines, rfl, _, _, hsteps, rfl, _, _, hexamples, rfl,
        rfl⟩ := h
      obtain ⟨line, hfound, hkind, rfl⟩ := line_of_shown hline
      obtain rfl := description_of_shown hlines
      obtain rfl := steps_of_shown hsteps
      obtain rfl := examples_of_shown hexamples
      refine ⟨_, filed?_generic (by decide) children _, _, line, rfl, hfound, hkind, ?_⟩
      simp only [RuleType.kept, List.append_nil]
  | examples =>
      obtain rfl := List.mem_singleton.1 hparts
      obtain ⟨_, _, hline, rfl, _, _, hlines, rfl, _, _, htable, rfl, rfl⟩ := h
      obtain ⟨line, hfound, hkind, rfl⟩ := line_of_shown hline
      obtain rfl := description_of_shown hlines
      obtain ⟨rows, hsplit, rfl⟩ := table_of_shown htable
      refine ⟨_, filed?_generic (by decide) children _, _, line, rows, rfl, hfound, hkind,
        hsplit, ?_⟩
      simp only [RuleType.kept, List.append_nil]

end Node

end Gherkin
