/-
  Gherkin.Proofs.Invariants
  ─────────────────────────
  **WHAT ALL BUILT DOCUMENTS HAVE IN COMMON.**

  Streams may nest rules in any way, so nothing can be said about where a
  value comes from.  But every value that a closing rule leaves behind is well
  formed as soon as those it is made of are:

    • `Node.Throughout`                  — what holds of all values in a node,
      however deep they lie,
    • `Node.Throughout.wellFormed_filed` — closing a node of well-formed values
      leaves a well-formed value behind,
    • `Builder.Reaches.throughout`       — so all values are well formed wherever
      a run gets; its tables are rectangular if none has been reported,
    • `result_wellFormed`                — and so is the document in the end.
-/
import Gherkin.Proofs.Reached
import Gherkin.Proofs.WellFormed

namespace Gherkin

/-! ## §1. All values in a node. -/

/-- The values that a node holds: those filed in it, and those held by nodes filed in it. -/
inductive Node.Holds : Node → Value → Prop
  | direct {n : Node} {c : RuleType} {v : Value} : v ∈ n.items c → n.Holds v
  | within {n m : Node} {c : RuleType} {v : Value} :
      .ofNode m ∈ n.items c → m.Holds v → n.Holds v

/-- Whether all values in a node satisfy a predicate, however deep they lie. -/
def Node.Throughout (P : Value → Prop) (n : Node) : Prop := ∀ v, n.Holds v → P v

theorem Grouped.mem_arrived {κ α : Type} [DecidableEq κ] {key : κ} {value : α}
    {arrivals : List (κ × α)} : value ∈ arrived key arrivals ↔ (key, value) ∈ arrivals := by
  unfold arrived
  rw [List.mem_map]
  constructor
  · rintro ⟨⟨k, v⟩, ha, rfl⟩
    obtain ⟨hmem, hkey⟩ := List.mem_filter.1 ha
    obtain rfl : k = key := of_decide_eq_true hkey
    exact hmem
  · intro h
    exact ⟨(key, value), List.mem_filter.2 ⟨h, decide_eq_true rfl⟩, rfl⟩

namespace Node

variable {P : Value → Prop} {n : Node}

theorem throughout_empty (type : RuleType) : (empty type).Throughout P := by
  intro v hv
  cases hv with
  | direct hmem => cases hmem
  | within hmem _ => cases hmem

theorem Throughout.item (h : n.Throughout P) {c : RuleType} {v : Value} (hv : v ∈ n.items c) :
    P v :=
  h v (.direct hv)

theorem Throughout.first (h : n.Throughout P) {c : RuleType} {v : Value}
    (hv : n.first? c = some v) : P v :=
  h.item (List.mem_of_mem_head? hv)

theorem Throughout.node (h : n.Throughout P) {m : Node} {c : RuleType}
    (hm : n.node? c = some m) : m.Throughout P := by
  have hmem : Value.ofNode m ∈ n.items c := List.mem_of_mem_head? (node?_eq_some_iff.1 hm)
  exact fun v hv => h v (.within hmem hv)

theorem Throughout.introduced (h : n.Throughout P) {inner : Node} {line : Token} {c : RuleType}
    {k : TokenType} (hi : n.introduced? c k = some (inner, line)) : inner.Throughout P :=
  h.node (introduced?_eq_some_iff.1 hi).1

end Node

/-- Whether a value satisfies a predicate, together with all values in it if it is a node. -/
def Value.Throughout (P : Value → Prop) (v : Value) : Prop :=
  P v ∧ ∀ m, v = .ofNode m → m.Throughout P

namespace Node

variable {P : Value → Prop} {n : Node}

theorem Throughout.addAll (h : n.Throughout P) {arrivals : List (RuleType × Value)}
    (ha : ∀ a ∈ arrivals, a.2.Throughout P) : (n.addAll arrivals).Throughout P := by
  intro v hv
  cases hv with
  | @direct _ c _ hmem =>
      rw [items_addAll] at hmem
      rcases List.mem_append.1 hmem with hmem | hmem
      · exact h.item hmem
      · exact (ha _ (Grouped.mem_arrived.1 hmem)).1
  | @within _ m c _ hmem hm =>
      rw [items_addAll] at hmem
      rcases List.mem_append.1 hmem with hmem | hmem
      · exact h v (.within hmem hm)
      · exact (ha _ (Grouped.mem_arrived.1 hmem)).2 m rfl v hm

end Node

/-! ## §2. Well-formed values. -/

/-- An element of any class. -/
def Element.WellFormed (even : Prop) : Element → Prop
  | .dataTable t => t.WellFormed even
  | .step s => s.WellFormed even
  | .background b => b.WellFormed even
  | .scenario s => s.WellFormed even
  | .examples e => e.WellFormed even
  | .rule r => r.WellFormed even
  | .feature f => f.WellFormed even
  | .document d => d.WellFormed even
  | _ => True

/-- A value: descriptions, lists of rows and elements are well formed. -/
def Value.WellFormed (even : Prop) : Value → Prop
  | .text s => Described s
  | .list items => ∃ rows, Value.list items = .ofRows rows ∧ Tabular even rows
  | .element e => e.WellFormed even
  | _ => True

/-! ## §3. Texts and tables. -/

theorem mem_intercalate {α : Type} {a : α} {part sep : List α} {parts : List (List α)}
    (ha : a ∈ part) (hpart : part ∈ parts) : a ∈ sep.intercalate parts := by
  induction parts with
  | nil => cases hpart
  | cons first rest ih =>
      cases rest with
      | nil =>
          rw [List.mem_singleton.1 hpart] at ha
          simpa using ha
      | cons second rest =>
          rw [List.intercalate_cons_cons]
          rcases List.mem_cons.1 hpart with rfl | hpart
          · simp [ha]
          · simp [ih hpart]

/-- The text of description lines is empty or can be seen: its last line can. -/
theorem described_paragraph (lines : List String) : Described (Text.paragraph lines) := by
  unfold Text.paragraph Text.dropTrailingBlank
  cases hkept : lines.reverse.dropWhile Text.blank with
  | nil => exact .inl rfl
  | cons last before =>
      have hlast : Text.blank last = false := by
        have hhead := List.head?_dropWhile_not Text.blank lines.reverse
        rw [hkept] at hhead
        exact hhead
      unfold Text.blank at hlast
      rw [List.all_eq_false] at hlast
      obtain ⟨c, hc, hseen⟩ := hlast
      refine .inr ⟨c, ?_, Bool.eq_false_iff.2 hseen⟩
      unfold Text.joinLines
      rw [String.toList_intercalate]
      exact mem_intercalate hc (List.mem_map.2 ⟨last, by simp, rfl⟩)

/-- A step that has succeeded for all elements of a list has succeeded for each of them. -/
theorem mem_of_mapM_eq_ok {ε α β : Type} {f : α → Except ε β} {l : List α} {bs : List β}
    (h : l.mapM f = .ok bs) : ∀ b ∈ bs, ∃ a ∈ l, f a = .ok b := by
  induction l generalizing bs with
  | nil =>
      cases h
      nofun
  | cons a rest ih =>
      rw [List.mapM_cons] at h
      cases ha : f a with
      | error x =>
          rw [ha] at h
          cases h
      | ok b =>
          cases hrest : rest.mapM f with
          | error x =>
              rw [ha, hrest] at h
              cases h
          | ok others =>
              rw [ha, hrest] at h
              cases h
              intro c hc
              rcases List.mem_cons.1 hc with rfl | hc
              · exact ⟨a, List.mem_cons_self, ha⟩
              · obtain ⟨a', ha', hf⟩ := ih hrest c hc
                exact ⟨a', List.mem_cons_of_mem _ ha', hf⟩

/-- The cells of a row are on its line. -/
theorem TableRow.onLine_of_ofToken {t : Token} {r : TableRow} (h : TableRow.ofToken t = .ok r) :
    ∀ c ∈ r.cells, c.location.line = r.location.line := by
  unfold TableRow.ofToken at h
  cases hcells : t.cells with
  | error x =>
      rw [hcells] at h
      cases h
  | ok cells =>
      rw [hcells] at h
      cases h
      intro c hc
      obtain ⟨i, -, hi⟩ := mem_of_mapM_eq_ok hcells c hc
      unfold TableCell.ofItem Location.onLine at hi
      cases hcolumn : position i.column with
      | error cause =>
          rw [hcolumn] at hi
          cases hi
      | ok column =>
          rw [hcolumn] at hi
          cases hi
          rfl

/-- A table that passes is rectangular. -/
theorem raggedRow?_of_tableRows {tokens : List Token} {rows : List TableRow}
    (h : tableRows tokens = .ok rows) : raggedRow? rows = none := by
  unfold tableRows at h
  split at h
  · unfold rectangular at h
    split at h
    · cases h
    next hnone =>
      cases h
      exact hnone
  · cases h

variable {even : Prop}

/-- **What a table leaves behind** is made of rows with their cells on their lines; it is
rectangular unless it is reported. -/
theorem Node.filed?_tabular {n : Node} {wrap : List TableRow → Value} {source : Source} {v : Value}
    (htable : n.type.tableValue? = some wrap) (hfiled : n.filed? source = some v)
    (heven : even → n.report? source = none) : ∃ rows, v = wrap rows ∧ Tabular even rows := by
  have hline : ∀ rows, (n.tokens .tableRow).mapM TableRow.ofToken = .ok rows →
      ∀ r ∈ rows, ∀ c ∈ r.cells, c.location.line = r.location.line := by
    intro rows hrows r hr
    obtain ⟨t, -, ht⟩ := mem_of_mapM_eq_ok hrows r hr
    exact TableRow.onLine_of_ofToken ht
  unfold filed? at hfiled
  unfold report? at heven
  rw [assemble_table htable] at hfiled heven
  obtain ⟨x, hrows⟩ | ⟨rows, hmap, hrows | ⟨row, -, hrows⟩⟩ := tableRows_cases (n.tokens .tableRow)
  · rw [hrows] at hfiled
    cases hfiled
  · rw [hrows] at hfiled
    cases hfiled
    exact ⟨rows, rfl, hline rows hmap,
      fun _ => raggedRow?_eq_none_iff.1 (raggedRow?_of_tableRows hrows)⟩
  · rw [hrows] at hfiled heven
    cases hfiled
    exact ⟨rows, rfl, hline rows hmap, fun h => nomatch heven h⟩

/-- The value of a table is well formed. -/
theorem Tabular.wellFormed_tableValue {type : RuleType} {wrap : List TableRow → Value}
    {rows : List TableRow} (h : Tabular even rows) (htype : type.tableValue? = some wrap) :
    (wrap rows).WellFormed even := by
  unfold RuleType.tableValue? at htype
  split at htype
  · cases htype
    cases rows with
    | nil => trivial
    | cons first rest => exact ⟨h, rfl⟩
  · cases htype
    exact ⟨rows, rfl, h⟩
  · cases htype

/-! ## §4. Reading a node of well-formed values. -/

namespace Node.Throughout

variable {n : Node} (h : n.Throughout (Value.WellFormed even))
include h

/-- The elements read from a category are well formed. -/
theorem all {α : Type} {read : Value → Option α} {wrap : α → Element} (hread : Value.Reads read wrap)
    {c : RuleType} : ∀ a ∈ (n.items c).filterMap read, (wrap a).WellFormed even := by
  intro a ha
  obtain ⟨v, hv, hva⟩ := List.mem_filterMap.1 ha
  obtain rfl := (hread v a).1 hva
  exact h.item hv

/-- The element read from the first value of a category is well formed. -/
theorem one {α : Type} {read : Value → Option α} {wrap : α → Element} (hread : Value.Reads read wrap)
    {c : RuleType} : ∀ a ∈ (n.first? c).bind read, (wrap a).WellFormed even := by
  intro a ha
  exact h.first (hread.bind_eq_some_iff.1 ha)

theorem described : Described n.description := by
  unfold Node.description
  cases hv : n.first? .description with
  | none => exact .inl rfl
  | some v =>
      cases v with
      | text s => exact h.first hv
      | _ => exact .inl rfl

theorem steps : ∀ s ∈ n.steps, s.WellFormed even := h.all Value.reads_step?

theorem scenarios : ∀ s ∈ n.scenarios, s.WellFormed even := h.all Value.reads_scenario?

theorem background : ∀ b ∈ n.background?, b.WellFormed even := h.one Value.reads_background?

/-- The table of an examples section, as its header and its body. -/
theorem splitTable {header : Option TableRow} {body : List TableRow}
    (hsplit : Examples.splitTable (n.first? .examplesTable) = .ok (header, body)) :
    Tabular even (header.toList ++ body) ∧ (header = none → body = []) := by
  have hnothing : Tabular even [] := ⟨nofun, fun _ => nofun⟩
  cases hv : n.first? .examplesTable with
  | none =>
      rw [hv] at hsplit
      cases hsplit
      exact ⟨hnothing, fun _ => rfl⟩
  | some v =>
      rw [hv] at hsplit
      cases v with
      | list items =>
          -- the list is a list of rows, and the first of them is the header
          obtain ⟨rows, hrows, htabular⟩ : ∃ rows, Value.list items = .ofRows rows ∧ Tabular even rows :=
            h.first hv
          rw [hrows, Examples.splitTable_ofRows] at hsplit
          cases hsplit
          cases rows with
          | nil => exact ⟨hnothing, fun _ => rfl⟩
          | cons first rest => exact ⟨htabular, nofun⟩
      | _ =>
          cases hsplit
          exact ⟨hnothing, fun _ => rfl⟩

end Node.Throughout

/-! ## §5. Elements made of well-formed values. -/

theorem Except.exists_of_map_eq_ok {ε α β : Type} {f : α → β} {x : Except ε α} {b : β}
    (h : x.map f = .ok b) : ∃ a, x = .ok a ∧ f a = b := by
  cases x with
  | error e => cases h
  | ok a =>
      cases h
      exact ⟨a, rfl, rfl⟩

/-- The value for an element that may be missing is well formed if the element is. -/
theorem Value.wellFormed_ofElement? {α : Type} {wrap : α → Element} {o : Option α}
    (h : ∀ a ∈ o, (wrap a).WellFormed even) : (Value.ofElement? wrap o).WellFormed even := by
  cases o with
  | none => trivial
  | some a => exact h a rfl

namespace Node.Throughout

variable {n : Node} (h : n.Throughout (Value.WellFormed even))
include h

theorem stepOf : ∀ s ∈ Step.ofNode? n, s.WellFormed even := by
  intro s hs
  obtain ⟨line, -, rfl⟩ := Option.map_eq_some_iff.1 hs
  refine ⟨?_, h.one Value.reads_dataTable?⟩
  -- a doc string is dropped when there is a data table
  cases (n.first? .dataTable).bind Value.dataTable? with
  | none => exact .inl rfl
  | some t => exact .inr rfl

theorem backgroundOf : ∀ b ∈ Background.ofNode? n, b.WellFormed even := by
  intro b hb
  obtain ⟨line, -, rfl⟩ := Option.map_eq_some_iff.1 hb
  exact ⟨h.described, h.steps⟩

theorem scenarioOf {o : Option Scenario} (ho : Scenario.ofNode n = .ok o) :
    ∀ s ∈ o, s.WellFormed even := by
  unfold Scenario.ofNode at ho
  split at ho
  · cases ho
    nofun
  next inner line hintro =>
    have hinner := h.introduced hintro
    obtain ⟨tags, -, rfl⟩ := Except.exists_of_map_eq_ok ho
    rintro s ⟨⟩
    exact ⟨hinner.described, hinner.steps, hinner.all Value.reads_examples?⟩

theorem examplesOf {o : Option Examples} (ho : Examples.ofNode n = .ok o) :
    ∀ e ∈ o, e.WellFormed even := by
  unfold Examples.ofNode at ho
  split at ho
  · cases ho
    nofun
  next inner line hintro =>
    have hinner := h.introduced hintro
    cases htags : n.tags with
    | error r =>
        simp only [htags] at ho
        cases ho
    | ok tags =>
        cases hsplit : Examples.splitTable (inner.first? .examplesTable) with
        | error issues =>
            simp only [htags, hsplit] at ho
            cases ho
        | ok split =>
            obtain ⟨header, body⟩ := split
            simp only [htags, hsplit] at ho
            cases ho
            rintro e ⟨⟩
            obtain ⟨htabular, hheaded⟩ := hinner.splitTable hsplit
            exact ⟨hinner.described, htabular, hheaded⟩

theorem ruleOf : ∀ r ∈ Rule.ofNode? n, r.WellFormed even := by
  intro r hr
  obtain ⟨⟨header, line⟩, hintro, rfl⟩ := Option.map_eq_some_iff.1 hr
  refine ⟨(h.introduced hintro).described, ⟨_, _, rfl⟩, ?_⟩
  intro c hc
  rcases List.mem_append.1 hc with hc | hc
  · obtain ⟨b, hb, rfl⟩ := List.mem_map.1 hc
    exact h.background b (Option.mem_toList.1 hb)
  · obtain ⟨s, hs, rfl⟩ := List.mem_map.1 hc
    exact h.scenarios s hs

theorem featureOf {o : Option Feature} (ho : Feature.ofNode n = .ok o) :
    ∀ f ∈ o, f.WellFormed even := by
  unfold Feature.ofNode at ho
  split at ho
  · cases ho
    nofun
  next header line hintro =>
    obtain ⟨tags, -, rfl⟩ := Except.exists_of_map_eq_ok ho
    rintro f ⟨⟩
    refine ⟨(h.introduced hintro).described, ⟨_, _, _, rfl⟩, ?_⟩
    intro c hc
    rcases List.mem_append.1 hc with hc | hc
    · rcases List.mem_append.1 hc with hc | hc
      · obtain ⟨b, hb, rfl⟩ := List.mem_map.1 hc
        exact h.background b (Option.mem_toList.1 hb)
      · obtain ⟨s, hs, rfl⟩ := List.mem_map.1 hc
        exact h.scenarios s hs
    · obtain ⟨r, hr, rfl⟩ := List.mem_map.1 hc
      exact h.all Value.reads_rule? r hr

theorem documentOf {source : Source} {d : Document} (hd : Document.ofNode source n = .ok d) :
    d.WellFormed even := by
  obtain ⟨comments, -, rfl⟩ := Except.exists_of_map_eq_ok hd
  exact h.one Value.reads_feature?

end Node.Throughout

/-- What a lifted outcome leaves behind is well formed if its value is. -/
theorem Node.wellFormed_lift {α : Type} {f : α → Value} {x : Except Rejection α} {v : Value}
    (h : left? (Fault.lift f x) = some v) (hx : ∀ a, x = .ok a → (f a).WellFormed even) :
    v.WellFormed even := by
  obtain ⟨a, ha, rfl⟩ := left?_lift h
  exact hx a ha

/-! ## §6. Closing a node, and whole runs. -/

/-- **Closing a node of well-formed values** leaves a well-formed value behind. -/
theorem Node.Throughout.wellFormed_filed {n : Node} {source : Source} {v : Value}
    (h : n.Throughout (Value.WellFormed even)) (hfiled : n.filed? source = some v)
    (heven : even → n.report? source = none) : v.WellFormed even := by
  cases htable : n.type.tableValue? with
  | some wrap =>
      obtain ⟨rows, rfl, hrows⟩ := filed?_tabular htable hfiled heven
      exact hrows.wellFormed_tableValue htable
  | none =>
      unfold filed? assemble at hfiled
      split at hfiled
      case h_3 htype | h_7 htype =>
        rw [htype] at htable
        cases htable
      case h_1 =>
        cases hfiled
        exact Value.wellFormed_ofElement? h.stepOf
      case h_2 =>
        cases hfiled
        exact Value.wellFormed_ofElement? fun _ _ => trivial
      case h_4 =>
        cases hfiled
        exact Value.wellFormed_ofElement? h.backgroundOf
      case h_5 =>
        exact wellFormed_lift hfiled fun o ho => Value.wellFormed_ofElement? (h.scenarioOf ho)
      case h_6 =>
        exact wellFormed_lift hfiled fun o ho => Value.wellFormed_ofElement? (h.examplesOf ho)
      case h_8 =>
        cases hfiled
        exact described_paragraph _
      case h_9 =>
        exact wellFormed_lift hfiled fun o ho => Value.wellFormed_ofElement? (h.featureOf ho)
      case h_10 =>
        cases hfiled
        exact Value.wellFormed_ofElement? h.ruleOf
      case h_11 =>
        exact wellFormed_lift hfiled fun d hd => h.documentOf hd
      case h_12 =>
        cases hfiled
        trivial

/-- A node that is filed is the one that was closed. -/
theorem Node.eq_of_filed {n m : Node} {source : Source} (h : n.filed? source = some (.ofNode m)) :
    m = n := by
  have htype : m.type = n.type := (filed?_result h).1
  have hchildren : m.children = n.children := filed?_node h
  cases n
  cases htype
  cases hchildren
  rfl

/-- What arrives from a node is well formed, and so is all that it holds. -/
theorem Node.Throughout.arrival {n : Node} {source : Source}
    (h : n.Throughout (Value.WellFormed even)) (heven : even → n.report? source = none) :
    ∀ a ∈ n.arrival source, a.2.Throughout (Value.WellFormed even) := by
  intro a ha
  obtain ⟨v, hfiled, rfl⟩ := Option.map_eq_some_iff.1 (Option.mem_toList.1 ha)
  refine ⟨h.wellFormed_filed hfiled heven, ?_⟩
  rintro m rfl
  rw [eq_of_filed hfiled]
  exact h

theorem Token.throughout_arrival (t : Token) :
    ∀ a ∈ t.arrival, a.2.Throughout (Value.WellFormed even) := by
  intro a ha
  unfold Token.arrival at ha
  split at ha
  · cases ha
  · rw [List.mem_singleton.1 ha]
    exact ⟨trivial, nofun⟩

/-- **All values are well formed wherever a run gets**, and tables are rectangular as long as none
has been reported. -/
theorem Builder.Reaches.throughout {b : Builder} {seen : List Event} {p : Progress}
    (h : b.Reaches seen p) (heven : even → p.errors = []) :
    ∀ n ∈ p.builder.stack, n.Throughout (Value.WellFormed even) := by
  induction h with
  | start =>
      intro n hn
      rw [List.mem_singleton.1 hn]
      exact Node.throughout_empty .root
  | @move seen p next e _ hmoves ih =>
      cases hmoves with
      | @leaf n outer t spare hstack =>
          have hbefore := ih heven
          rw [hstack] at hbefore
          obtain ⟨hn, houter⟩ := List.forall_mem_cons.1 hbefore
          exact List.forall_mem_cons.2 ⟨hn.addAll t.throughout_arrival, houter⟩
      | opening type spare =>
          exact List.forall_mem_cons.2 ⟨Node.throughout_empty type, ih heven⟩
      | @closing n m inner rules v spare hstack hrules hfiled =>
          -- no report after the closing means none before and none of it
          have hnone : even → p.errors = [] ∧ n.report? p.builder.source = none := by
            intro h
            obtain ⟨hbefore, hreport⟩ := List.append_eq_nil_iff.1 (heven h)
            exact ⟨hbefore, Option.toList_eq_nil_iff.1 hreport⟩
          have hbefore := ih fun h => (hnone h).1
          rw [hstack] at hbefore
          obtain ⟨hn, hbelow⟩ := List.forall_mem_cons.1 hbefore
          obtain ⟨hm, hinner⟩ := List.forall_mem_cons.1 hbelow
          exact List.forall_mem_cons.2 ⟨hm.addAll (hn.arrival fun h => (hnone h).2), hinner⟩

/-- **Every built document is well formed**, whatever the stream: descriptions can be seen, cells
are on the lines of their rows, children are in order, no step has two arguments.  If the run has
reported no ragged table, then all tables are rectangular. -/
theorem result_wellFormed (b : Builder) (stop : Bool) (events : List Event) {d : Document}
    {errors : List RaggedTable}
    (h : (b.run stop events).outcome = .ok { document := some d, errors }) :
    d.WellFormed (errors = []) := by
  obtain ⟨seen, rest, p, n, outer, -, hreaches, hstack, hdocument, herrors⟩ :=
    Builder.run_result h
  have hnode : n.Throughout (Value.WellFormed (errors = [])) :=
    hreaches.throughout (fun hnone => herrors.trans hnone) n (by rw [hstack]; exact List.mem_cons_self)
  exact hnode.one Value.reads_document? d hdocument

/-- A stream against all rules of the grammar: a scenario before the background, a step with a doc
string and a ragged table, an examples table without a row. -/
def disorderedEvents : List Event :=
  [ .opening .gherkinDocument none,
    .opening .feature none,
    .opening .scenarioDefinition none,
    .opening .scenario none,
    .leaf { type := .scenarioLine, location := ⟨2, 3⟩, keyword := "Scenario", text := "S" } none,
    .opening .step none,
    .leaf { type := .stepLine, location := ⟨3, 5⟩, keyword := "* ", text := "x" } none,
    .opening .docString none,
    .leaf { type := .docStringSeparator, location := ⟨4, 7⟩, keyword := "```" } none,
    .closing .docString none,
    .opening .dataTable none,
    .leaf { type := .tableRow, location := ⟨5, 7⟩, items := [⟨9, "a"⟩, ⟨13, "b"⟩] } none,
    .leaf { type := .tableRow, location := ⟨6, 7⟩, items := [⟨9, "c"⟩] } none,
    .closing .dataTable none,
    .closing .step none,
    .closing .scenario none,
    .closing .scenarioDefinition none,
    .opening .background none,
    .leaf { type := .backgroundLine, location := ⟨8, 3⟩, keyword := "Background" } none,
    .closing .background none,
    .opening .featureHeader none,
    .leaf { type := .featureLine, location := ⟨1, 1⟩, keyword := "Feature" } none,
    .closing .featureHeader none,
    .closing .feature none,
    .closing .gherkinDocument none ]

theorem result_disorderedEvents :
    ∃ d errors, ((Builder.new "").run false disorderedEvents).outcome
        = .ok { document := some d, errors }
      ∧ errors.length = 1 ∧ d.WellFormed (errors = []) := by
  have hrun : ((Builder.new "").run false disorderedEvents).outcome
      = .ok { document := some _, errors := _ } := rfl
  exact ⟨_, _, hrun, rfl, result_wellFormed (Builder.new "") false disorderedEvents hrun⟩

end Gherkin
