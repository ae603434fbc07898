/-
  Gherkin.Proofs.Assembling
  ─────────────────────────
  **WHAT A CLOSED RULE CAN BECOME.**

  `Node.assemble` has one branch per production and three exits.  This module
  is the only one that goes through all branches; everything later cites

    • `Node.assemble_generic` — a rule that is not assembled stays a node,
    • `Node.assemble_table` — what the two kinds of tables become,
    • `Node.assemble_ne_ragged` — nothing else reports a ragged table,
    • `Node.assemble_ragged` — what is kept of a ragged table: all its rows,
    • `Node.filed?_result` — the kind of value that is filed for a rule,
      whether or not its table was ragged.
-/
import Gherkin.Assembly
import Gherkin.Diagnostic
import Gherkin.Proofs.Grouping

namespace Gherkin

/-! ## §1. What is filed and what is reported. -/

/-- What arrives at a node when a token is read: nothing for a comment. -/
def Token.arrival (t : Token) : List (RuleType × Value) :=
  if t.type = .comment then [] else [(t.category, .token t)]

namespace Node

/-- What an outcome leaves behind: its value, or what was kept of a ragged table. -/
def left? : Except (Fault Value) Value → Option Value
  | .ok v => some v
  | .error (.ragged _ kept) => some kept
  | .error (.rejected _) => none

/-- What is filed for a node when it closes. -/
def filed? (source : Source) (n : Node) : Option Value := left? (n.assemble source)

/-- The ragged table that is reported when a node closes. -/
def report? (source : Source) (n : Node) : Option RaggedTable :=
  match n.assemble source with
  | .error (.ragged location kept) => some ⟨location, kept⟩
  | _ => none

theorem filed?_of_ok {source : Source} {n : Node} {v : Value} (h : n.assemble source = .ok v) :
    n.filed? source = some v := by
  unfold filed?
  rw [h]
  rfl

theorem report?_of_ok {source : Source} {n : Node} {v : Value} (h : n.assemble source = .ok v) :
    n.report? source = none := by
  unfold report?
  rw [h]

theorem filed?_of_ragged {source : Source} {n : Node} {l : Location} {kept : Value}
    (h : n.assemble source = .error (.ragged l kept)) : n.filed? source = some kept := by
  unfold filed?
  rw [h]
  rfl

theorem report?_of_ragged {source : Source} {n : Node} {l : Location} {kept : Value}
    (h : n.assemble source = .error (.ragged l kept)) : n.report? source = some ⟨l, kept⟩ := by
  unfold report?
  rw [h]

theorem filed?_of_rejected {source : Source} {n : Node} {r : Rejection}
    (h : n.assemble source = .error (.rejected r)) : n.filed? source = none := by
  unfold filed?
  rw [h]
  rfl

theorem report?_of_rejected {source : Source} {n : Node} {r : Rejection}
    (h : n.assemble source = .error (.rejected r)) : n.report? source = none := by
  unfold report?
  rw [h]

/-- What arrives at the next node when a node closes. -/
def arrival (source : Source) (n : Node) : List (RuleType × Value) :=
  ((n.filed? source).map fun v => (n.type, v)).toList

theorem arrival_of_filed {source : Source} {n : Node} {v : Value}
    (h : n.filed? source = some v) : n.arrival source = [(n.type, v)] := by
  unfold arrival
  rw [h]
  rfl

theorem arrival_of_rejected {source : Source} {n : Node} {r : Rejection}
    (h : n.assemble source = .error (.rejected r)) : n.arrival source = [] := by
  unfold arrival
  rw [filed?_of_rejected h]
  rfl

/-! ## §2. Rules that stay nodes, and tables. -/

theorem assemble_generic {n : Node} (h : n.type ∉ RuleType.assembled) (source : Source) :
    n.assemble source = .ok (.ofNode n) := by
  unfold assemble
  split
  -- the last branch keeps the node; the others each name an assembled type
  case h_12 => rfl
  all_goals
    rename_i htype
    exact absurd (by rw [htype]; decide) h

end Node

/-- How the rows of a table become the value of its rule; only two productions are tables. -/
def RuleType.tableValue? : RuleType → Option (List TableRow → Value)
  | .dataTable => some fun rows => .ofElement? .dataTable (DataTable.ofRows? rows)
  | .examplesTable => some .ofRows
  | _ => none

namespace Node

/-- The rows of a table are refused, or rectangular, or ragged. -/
theorem tableRows_cases (tokens : List Token) :
    (∃ rejection, tableRows tokens = .error (.rejected rejection))
      ∨ ∃ rows, tokens.mapM TableRow.ofToken = .ok rows
        ∧ (tableRows tokens = .ok rows
          ∨ ∃ row, raggedRow? rows = some row
            ∧ tableRows tokens = .error (.ragged row.location rows)) := by
  unfold tableRows
  cases tokens.mapM TableRow.ofToken with
  | error rejection => exact .inl ⟨rejection, rfl⟩
  | ok rows =>
      refine .inr ⟨rows, rfl, ?_⟩
      show rectangular rows = .ok rows ∨ ∃ row, _ ∧ rectangular rows = _
      unfold rectangular
      cases hragged : raggedRow? rows with
      | none => exact .inl rfl
      | some row => exact .inr ⟨row, rfl, rfl⟩

/-- **A table becomes the value of its rows**, and so does what is kept of a ragged one. -/
theorem assemble_table {n : Node} {wrap : List TableRow → Value}
    (h : n.type.tableValue? = some wrap) (source : Source) :
    n.assemble source =
      match tableRows (n.tokens .tableRow) with
      | .ok rows => .ok (wrap rows)
      | .error fault => .error (fault.map wrap) := by
  unfold RuleType.tableValue? at h
  unfold assemble
  split at h
  case h_1 htype =>
    cases h
    rw [htype]
    unfold DataTable.ofNode
    cases tableRows (n.tokens .tableRow) with
    | ok rows => rfl
    | error fault => cases fault <;> rfl
  case h_2 htype =>
    cases h
    cases tableRows (n.tokens .tableRow) <;> simp only [htype]
  case h_3 => cases h

/-- Lifting an outcome adds no ragged table. -/
theorem lift_ne_ragged {α : Type} {f : α → Value} {x : Except Rejection α} {l : Location}
    {kept : Value} : Fault.lift f x ≠ .error (.ragged l kept) := by
  cases x <;> nofun

/-- **Only tables are ragged.** -/
theorem assemble_ne_ragged {n : Node} (h : n.type.tableValue? = none) (source : Source)
    (l : Location) (kept : Value) : n.assemble source ≠ .error (.ragged l kept) := by
  unfold assemble
  split
  case h_3 htype | h_7 htype =>
    rw [htype] at h
    cases h
  all_goals first | exact lift_ne_ragged | nofun

/-- **What is kept of a ragged table** is made of all its rows; the report is about one of them. -/
theorem assemble_ragged {n : Node} {source : Source} {l : Location} {kept : Value}
    (h : n.assemble source = .error (.ragged l kept)) :
    ∃ wrap rows row, n.type.tableValue? = some wrap
      ∧ (n.tokens .tableRow).mapM TableRow.ofToken = .ok rows
      ∧ raggedRow? rows = some row ∧ row.location = l ∧ kept = wrap rows := by
  cases htable : n.type.tableValue? with
  | none => exact absurd h (assemble_ne_ragged htable source l kept)
  | some wrap =>
      rw [assemble_table htable] at h
      obtain ⟨x, hrows⟩ | ⟨rows, hmap, hrows | ⟨row, hragged, hrows⟩⟩ :=
        tableRows_cases (n.tokens .tableRow)
      · rw [hrows] at h
        cases h
      · rw [hrows] at h
        cases h
      · rw [hrows] at h
        cases h
        exact ⟨wrap, rows, row, rfl, hmap, hragged, rfl, rfl⟩

/-- What is kept of a ragged table, for the two kinds of tables; it has a first row. -/
theorem kept_of_ragged {n : Node} {source : Source} {l : Location} {kept : Value}
    (h : n.assemble source = .error (.ragged l kept)) :
    ∃ first rest, (n.tokens .tableRow).mapM TableRow.ofToken = .ok (first :: rest)
      ∧ ((n.type = .dataTable ∧ kept = .element (.dataTable ⟨first.location, first :: rest⟩))
        ∨ (n.type = .examplesTable ∧ kept = .ofRows (first :: rest))) := by
  obtain ⟨wrap, rows, row, htable, hrows, hragged, -, rfl⟩ := assemble_ragged h
  cases rows with
  | nil => cases hragged
  | cons first rest =>
      refine ⟨first, rest, hrows, ?_⟩
      unfold RuleType.tableValue? at htable
      split at htable
      next htype =>
        cases htable
        exact .inl ⟨htype, rfl⟩
      next htype =>
        cases htable
        exact .inr ⟨htype, rfl⟩
      next => cases htable

end Node

/-! ## §3. The kind of value that is filed for a rule. -/

/-- The class of the element that a rule stands for, if it stands for one. -/
def RuleType.elementClass? : RuleType → Option ElementClass
  | .step => some .step
  | .docString => some .docString
  | .dataTable => some .dataTable
  | .background => some .background
  | .scenarioDefinition => some .scenario
  | .examplesDefinition => some .examples
  | .feature => some .feature
  | .rule => some .rule
  | .gherkinDocument => some .document
  | _ => none

/-- The kind of value that a closed rule of a type leaves behind. -/
def Value.Result (r : RuleType) : Value → Prop
  | .null => r.elementClass?.isSome = true ∧ r ≠ .gherkinDocument
  | .text _ => r = .description
  | .list items => r = .examplesTable ∧ ∃ rows, Value.list items = .ofRows rows
  | .element e => r.elementClass? = some e.cls
  | .node type _ => type = r ∧ r ∉ RuleType.assembled
  | _ => False

theorem Value.Result.not_token {r : RuleType} {v : Value} (h : v.Result r) : v.token? = none := by
  cases v <;> first | rfl | exact h.elim

theorem Value.result_ofElement? {α : Type} {r : RuleType} {wrap : α → Element}
    (hr : r.elementClass?.isSome = true ∧ r ≠ .gherkinDocument)
    (hwrap : ∀ a, r.elementClass? = some (wrap a).cls) (o : Option α) :
    (Value.ofElement? wrap o).Result r := by
  cases o with
  | none => exact hr
  | some a => exact hwrap a

theorem Value.result_tableValue {r : RuleType} {wrap : List TableRow → Value}
    (h : r.tableValue? = some wrap) (rows : List TableRow) : (wrap rows).Result r := by
  unfold RuleType.tableValue? at h
  split at h
  · cases h
    exact Value.result_ofElement? (by decide) (fun _ => rfl) _
  · cases h
    exact ⟨rfl, rows, rfl⟩
  · cases h

namespace Node

/-- What is filed for a table is the value of the rows for its tokens. -/
theorem filed?_table {n : Node} {wrap : List TableRow → Value} {source : Source} {v : Value}
    (hn : n.type.tableValue? = some wrap) (h : n.filed? source = some v) :
    ∃ rows, (n.tokens .tableRow).mapM TableRow.ofToken = .ok rows ∧ v = wrap rows := by
  unfold filed? at h
  rw [assemble_table hn] at h
  obtain ⟨x, hrows⟩ | ⟨rows, hmap, hrows | ⟨row, -, hrows⟩⟩ :=
    tableRows_cases (n.tokens .tableRow)
  · rw [hrows] at h
    cases h
  · rw [hrows] at h
    cases h
    exact ⟨rows, hmap, rfl⟩
  · rw [hrows] at h
    cases h
    exact ⟨rows, hmap, rfl⟩

/-- What a lifted outcome leaves behind is its value. -/
theorem left?_lift {α : Type} {f : α → Value} {x : Except Rejection α} {v : Value}
    (h : left? (Fault.lift f x) = some v) : ∃ a, x = .ok a ∧ v = f a := by
  cases x with
  | ok a =>
      cases h
      exact ⟨a, rfl, rfl⟩
  | error rejection => cases h

/-- **What is filed for a rule** is of the kind that its type stands for. -/
theorem filed?_result {source : Source} {n : Node} {v : Value} (h : n.filed? source = some v) :
    v.Result n.type := by
  by_cases hgen : n.type ∈ RuleType.assembled
  -- a table by its rows, ragged or not; any other rule by its own branch
  · cases htable : n.type.tableValue? with
    | some wrap =>
        obtain ⟨rows, -, rfl⟩ := filed?_table htable h
        exact Value.result_tableValue htable rows
    | none =>
        unfold filed? assemble at h
        cases htype : n.type <;> rw [htype] at h
        case dataTable | examplesTable =>
          rw [htype] at htable
          cases htable
        case step | docString | background | rule =>
          cases h
          exact Value.result_ofElement? (by decide) (fun _ => rfl) _
        case scenarioDefinition | examplesDefinition | feature =>
          obtain ⟨o, -, rfl⟩ := left?_lift h
          exact Value.result_ofElement? (by decide) (fun _ => rfl) o
        case description =>
          cases h
          rfl
        case gherkinDocument =>
          obtain ⟨d, -, rfl⟩ := left?_lift h
          rfl
        all_goals
          rw [htype] at hgen
          exact absurd hgen (by simp [RuleType.assembled])
  · rw [filed?_of_ok (assemble_generic hgen source)] at h
    cases h
    exact ⟨rfl, hgen⟩

/-- A node that is filed for a rule is the node that was closed. -/
theorem filed?_node {source : Source} {n : Node} {type : RuleType}
    {children : List (RuleType × List Value)}
    (h : n.filed? source = some (.node type children)) : children = n.children := by
  have hresult := filed?_result h
  rw [filed?_of_ok (assemble_generic hresult.2 source)] at h
  cases h
  rfl

end Node

/-! ## §4. Tokens among the arrivals. -/

namespace Node

/-- The tokens of one type that arrivals bring to a node. -/
def broughtTokens (k : TokenType) (arrivals : List (RuleType × Value)) : List Token :=
  (Grouped.arrived (.leaf k) arrivals).filterMap Value.token?

theorem broughtTokens_append (k : TokenType) (as bs : List (RuleType × Value)) :
    broughtTokens k (as ++ bs) = broughtTokens k as ++ broughtTokens k bs := by
  unfold broughtTokens
  rw [Grouped.arrived_append, List.filterMap_append]

theorem tokens_addAll (k : TokenType) (arrivals : List (RuleType × Value)) (n : Node) :
    (n.addAll arrivals).tokens k = n.tokens k ++ broughtTokens k arrivals := by
  unfold tokens broughtTokens
  rw [items_addAll, List.filterMap_append]

/-- A rule never leaves a token behind. -/
theorem broughtTokens_arrival (k : TokenType) (source : Source) (n : Node) :
    broughtTokens k (n.arrival source) = [] := by
  unfold broughtTokens
  cases hv : n.filed? source with
  | none =>
      unfold arrival
      rw [hv]
      rfl
  | some v =>
      have hnone : v.token? = none := (filed?_result hv).not_token
      rw [arrival_of_filed hv, Grouped.arrived_singleton]
      by_cases h : n.type = .leaf k <;> simp [h, hnone]

theorem arrived_arrival_of_ne {n : Node} {c : RuleType} (h : n.type ≠ c) (source : Source) :
    Grouped.arrived c (n.arrival source) = [] := by
  cases hv : n.filed? source with
  | none =>
      unfold arrival
      rw [hv]
      rfl
  | some v => rw [arrival_of_filed hv, Grouped.arrived_singleton, if_neg h]

end Node

theorem Token.arrived_arrival_of_ne {t : Token} {c : RuleType} (h : t.category ≠ c) :
    Grouped.arrived c t.arrival = [] := by
  unfold arrival
  split
  next => rfl
  next => rw [Grouped.arrived_singleton, if_neg h]

theorem Token.broughtTokens_arrival {k : TokenType} (hk : k ≠ .comment) (t : Token) :
    Node.broughtTokens k t.arrival = if t.type = k then [t] else [] := by
  unfold Node.broughtTokens arrival
  by_cases hcomment : t.type = .comment
  · rw [if_pos hcomment, if_neg (hcomment ▸ hk.symm)]
    rfl
  · rw [if_neg hcomment, Grouped.arrived_singleton]
    by_cases h : t.type = k <;> simp [h, Token.category, Value.token?]

/-! ## §5. Reading a node. -/

namespace Value

/-- Whether a reading finds the elements of one class, as they are, and nothing else. -/
def Reads {α : Type} (read : Value → Option α) (wrap : α → Element) : Prop :=
  ∀ v a, read v = some a ↔ v = .element (wrap a)

theorem reads_step? : Reads step? .step := by
  intro v a
  unfold step?
  split <;> simp_all

theorem reads_dataTable? : Reads dataTable? .dataTable := by
  intro v a
  unfold dataTable?
  split <;> simp_all

theorem reads_docString? : Reads docString? .docString := by
  intro v a
  unfold docString?
  split <;> simp_all

theorem reads_examples? : Reads examples? .examples := by
  intro v a
  unfold examples?
  split <;> simp_all

theorem reads_scenario? : Reads scenario? .scenario := by
  intro v a
  unfold scenario?
  split <;> simp_all

theorem reads_background? : Reads background? .background := by
  intro v a
  unfold background?
  split <;> simp_all

theorem reads_rule? : Reads rule? .rule := by
  intro v a
  unfold rule?
  split <;> simp_all

theorem reads_feature? : Reads feature? .feature := by
  intro v a
  unfold feature?
  split <;> simp_all

theorem reads_document? : Reads document? .document := by
  intro v a
  unfold document?
  split <;> simp_all

/-- What is read of a value that may be missing is the value itself. -/
theorem Reads.bind_eq_some_iff {α : Type} {read : Value → Option α} {wrap : α → Element}
    (h : Reads read wrap) {v? : Option Value} {a : α} :
    v?.bind read = some a ↔ v? = some (.element (wrap a)) := by
  cases v? with
  | none => exact iff_of_false nofun nofun
  | some v => exact (h v a).trans (Option.some.injEq v _).symm.to_iff

/-- Elements side by side are read back as they are. -/
theorem Reads.filterMap_elements {α : Type} {read : Value → Option α} {wrap : α → Element}
    (h : Reads read wrap) (l : List α) :
    (l.map fun a => Value.element (wrap a)).filterMap read = l := by
  rw [List.filterMap_map]
  exact (List.filterMap_congr fun a _ => (h _ a).2 rfl).trans List.filterMap_some

end Value

namespace Node

variable {n : Node}

theorem token?_of_items {k : TokenType} {t : Token} (h : n.items (.leaf k) = [.token t]) :
    n.token? k = some t := by
  unfold token? first?
  rw [h]
  rfl

theorem node?_of_items {c : RuleType} {inner : Node} (h : n.items c = [.ofNode inner]) :
    n.node? c = some inner := by
  unfold node? first?
  rw [h]
  rfl

theorem introduced?_of_items {c : RuleType} {k : TokenType} {inner : Node} {line : Token}
    (h : n.items c = [.ofNode inner]) (hline : inner.token? k = some line) :
    n.introduced? c k = some (inner, line) :=
  introduced?_eq_some_iff.2 ⟨node?_of_items h, hline⟩

theorem description_of_items {text : String} (h : n.items .description = [.text text]) :
    n.description = text := by
  unfold description first?
  rw [h]
  rfl

end Node

/-! ## §6. Parts that come from the builder itself are never refused. -/

/-- The source with the given comments, as a builder hands them over. -/
def Source.of (uri : String) (comments : List Comment) : Source :=
  ⟨uri, comments.map fun c => .element (.comment c)⟩

/-- The table of an examples section comes back as its first row and the others. -/
theorem Examples.splitTable_ofRows (rows : List TableRow) :
    Examples.splitTable (some (.ofRows rows)) = .ok (rows.head?, rows.tail) := by
  cases rows with
  | nil => rfl
  | cons header body =>
      -- the header stands as it is; only the body is read again, row by row
      have hbody := Checked.collect_map
        (fun r => (rfl : TableRow.ofValue (.element (.tableRow r)) = .ok r)) body 0
      show Checked.pair (.ok (some header)) (Checked.under _
        (Checked.collect TableRow.ofValue 0 (body.map fun r => .element (.tableRow r)))) = _
      rw [hbody]
      rfl

theorem Document.ofNode_of (uri : String) (comments : List Comment) (n : Node) :
    Document.ofNode (.of uri comments) n =
      .ok { uri, feature := (n.first? .feature).bind Value.feature?, comments } := by
  have hcomments := Checked.collect_map
    (fun c => (rfl : Comment.ofValue (.element (.comment c)) = .ok c)) comments 0
  show (Checked.about _ (Checked.under _ (Checked.collect Comment.ofValue 0
    (comments.map fun c => .element (.comment c))))).map _ = _
  rw [hcomments]
  rfl

/-- The rule of a document takes its feature from the tree and the rest from the builder. -/
theorem Node.assemble_gherkinDocument {n : Node} (h : n.type = .gherkinDocument) (uri : String)
    (comments : List Comment) :
    n.assemble (.of uri comments) = .ok (.element (.document
      { uri, feature := (n.first? .feature).bind Value.feature?, comments })) := by
  unfold assemble
  rw [h]
  show Fault.lift _ (Document.ofNode _ n) = _
  rw [Document.ofNode_of]
  rfl

end Gherkin
