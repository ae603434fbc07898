/-
  Gherkin.Proofs.Reports
  ──────────────────────
  **WHAT IS REPORTED OF THE TABLES OF A STREAM.**

  A ragged table shows in three places: among the errors of the run, in the
  message of the error that puts them together, and in the notes of the run.
  All three can be read off the stream by counting items:

    • `Forest.instances`    — the rules of a stream, in the order of their
      ends (`Forest.Walked.closings`),
    • `Forest.raggedTables` — the tables among them whose rows differ in their
      number of items, and `FirstMismatch`, the row that is to blame,
    • `Forest.forall₂_faults` — the reports match those tables one by one,
    • `reports_agree_with_stream` — and errors, message and notes are made of
      the reports, unless the stream does not nest.
-/
import Gherkin.Proofs.Siblings
import Mathlib.Data.List.Forall2

namespace Gherkin

/-! ## §1. Ragged rows. -/

/-- Whether the tokens of rows differ in their number of items. -/
def RaggedRows (rows : List Token) : Prop :=
  ∃ r ∈ rows, ∃ s ∈ rows, r.items.length ≠ s.items.length

instance (rows : List Token) : Decidable (RaggedRows rows) := by
  unfold RaggedRows
  infer_instance

/-- A row, and all those before it have as many items as the first one, but it has not. -/
inductive FirstMismatch : List Token → Token → Prop
  | intro {first t : Token} {before : List Token} (after : List Token) :
      (∀ s ∈ before, s.items.length = first.items.length) →
      t.items.length ≠ first.items.length →
      FirstMismatch (first :: (before ++ t :: after)) t

theorem raggedToken?_eq_none_iff {rows : List Token} :
    raggedToken? rows = none ↔ ¬ RaggedRows rows := by
  have hrows : raggedToken? rows = none ↔ raggedRow? (rows.map Token.row) = none := by
    rw [raggedRow?_map_row, Option.map_eq_none_iff]
  rw [hrows, raggedRow?_eq_none_iff]
  unfold RaggedRows
  simp

theorem raggedToken?_eq_some {rows : List Token} {t : Token} (h : raggedToken? rows = some t) :
    FirstMismatch rows t := by
  cases rows with
  | nil => cases h
  | cons first rest =>
      obtain ⟨hdiffers, before, after, rfl, hbefore⟩ := List.find?_eq_some_iff_append.1 h
      refine .intro after ?_ (of_decide_eq_true hdiffers)
      intro s hs
      simpa using hbefore s hs

/-! ## §2. The rules of a stream. -/

/-- The type of the rule that an event closes. -/
def Event.closes? : Event → Option RuleType
  | .closing type _ => some type
  | _ => none

mutual

/-- The rules of a tree with the trees below each, in the order of their ends. -/
def Tree.instances : Tree → List (RuleType × Forest)
  | .leaf _ => []
  | .rule type children => Forest.instances children ++ [(type, children)]

/-- The rules of trees side by side. -/
def Forest.instances : Forest → List (RuleType × Forest)
  | [] => []
  | t :: rest => t.instances ++ Forest.instances rest

end

/-- The rule types of tables. -/
def RuleType.IsTable (type : RuleType) : Prop := type = .dataTable ∨ type = .examplesTable

instance (type : RuleType) : Decidable type.IsTable := by
  unfold RuleType.IsTable
  infer_instance

/-- Tables are the rules whose value is made of rows. -/
theorem RuleType.isTable_iff {type : RuleType} :
    type.IsTable ↔ ∃ wrap, type.tableValue? = some wrap := by
  unfold IsTable tableValue?
  cases type <;> simp

namespace Forest

/-- The tables of a forest whose rows differ in their number of items, in the order of their ends:
the type of each, and the tokens of its rows. -/
def raggedTables (f : Forest) : List (RuleType × List Token) :=
  (f.instances.map fun i => (i.1, i.2.direct .tableRow)).filter fun table =>
    table.1.IsTable ∧ RaggedRows table.2

theorem instances_rule (type : RuleType) (children rest : Forest) :
    instances (.rule type children :: rest)
      = instances children ++ (type, children) :: instances rest := by
  show instances children ++ [(type, children)] ++ instances rest = _
  rw [List.append_assoc, List.singleton_append]

/-- The closings in the walk of a forest are those of its rules. -/
theorem closings_events (f : Forest) :
    f.events.filterMap Event.closes? = f.instances.map Prod.fst := by
  induction f using Forest.induction with
  | nil => rfl
  | leaf t rest ih => exact ih
  | rule type children rest ihc ihr =>
      rw [events_rule, instances_rule, List.map_append, List.map_cons, ← ihc, ← ihr]
      exact List.filterMap_append

/-- **The rules of a stream are listed in the order of their closings.** -/
theorem Walked.closings {f : Forest} {events : List Event} (hf : f.Walked events) :
    f.instances.map Prod.fst = events.filterMap Event.closes? := by
  have hbare : Event.closes? ∘ Event.bare = Event.closes? := by
    funext e
    cases e <;> rfl
  rw [← closings_events, ← hf, List.filterMap_map, hbare]

/-- The ragged tables that an evaluation finds, rule by rule. -/
theorem faults_eq (f : Forest) :
    f.faults = f.instances.filterMap fun i =>
      (i.1.fault? (i.2.direct .tableRow)).map fun r => (i.1, r) := by
  induction f using Forest.induction with
  | nil => rfl
  | leaf t rest ih => exact ih
  | rule type children rest ihc ihr =>
      -- the tables inside a rule come before the rule itself, in both lists
      rw [faults_rule, instances_rule, List.filterMap_append, ← ihc, List.append_assoc]
      congr 1
      rw [List.filterMap_cons, ← ihr]
      cases type.fault? (direct .tableRow children) <;> rfl

end Forest

/-! ## §3. Reports on tables. -/

/-- A report on a table: its type, and the place of the first row that does not match. -/
def ReportedAs (table : RuleType × List Token) (report : RuleType × RaggedTable) : Prop :=
  report.1 = table.1 ∧ ∃ t, FirstMismatch table.2 t ∧ report.2.location = t.location

/-- A filter and a partial function that accept the same elements give matching lists. -/
theorem forall₂_filter_filterMap {α β : Type} {p : α → Prop} [DecidablePred p] {g : α → Option β}
    {R : α → β → Prop} (h : ∀ a, if p a then ∃ b, g a = some b ∧ R a b else g a = none)
    (l : List α) : List.Forall₂ R (l.filter p) (l.filterMap g) := by
  induction l with
  | nil => exact .nil
  | cons a rest ih =>
      have ha := h a
      by_cases hp : p a
      · rw [if_pos hp] at ha
        obtain ⟨b, hb, hR⟩ := ha
        rw [List.filter_cons, if_pos (decide_eq_true hp), List.filterMap_cons_some hb]
        exact .cons hR ih
      · rw [if_neg hp] at ha
        rw [List.filter_cons, if_neg (by simpa using hp), List.filterMap_cons_none ha]
        exact ih

/-- A rule is reported exactly when it is a table with ragged rows. -/
theorem RuleType.fault?_reported (type : RuleType) (rows : List Token) :
    if type.IsTable ∧ RaggedRows rows
    then ∃ r, (type.fault? rows).map (fun r => (type, r)) = some r ∧ ReportedAs (type, rows) r
    else (type.fault? rows).map (fun r => (type, r)) = none := by
  unfold fault?
  by_cases h : type.IsTable ∧ RaggedRows rows
  · rw [if_pos h]
    obtain ⟨wrap, hwrap⟩ := isTable_iff.1 h.1
    cases ht : raggedToken? rows with
    | none => exact absurd h.2 (raggedToken?_eq_none_iff.1 ht)
    | some t =>
        rw [hwrap]
        exact ⟨_, rfl, rfl, t, raggedToken?_eq_some ht, rfl⟩
  · rw [if_neg h]
    cases hwrap : type.tableValue? with
    | none => rfl
    | some wrap =>
        have hrows : ¬ RaggedRows rows := fun hrows => h ⟨isTable_iff.2 ⟨wrap, hwrap⟩, hrows⟩
        rw [raggedToken?_eq_none_iff.2 hrows]
        rfl

/-- **The reports match the ragged tables one by one.** -/
theorem Forest.forall₂_faults (f : Forest) : List.Forall₂ ReportedAs f.raggedTables f.faults := by
  have hfaults : f.faults = (f.instances.map fun i => (i.1, i.2.direct .tableRow)).filterMap
      fun table => (table.1.fault? table.2).map fun r => (table.1, r) := by
    rw [faults_eq, List.filterMap_map]
    rfl
  rw [hfaults]
  exact forall₂_filter_filterMap (fun table => table.1.fault?_reported table.2) _

/-! ## §4. Errors, message and notes. -/

/-- The line on a table that is ragged at a place. -/
def raggedLine (l : Location) : String :=
  "(" ++ l.text ++ "): " ++ "inconsistent cell count within the table"

/-- The messages of ragged tables, put together line by line. -/
theorem message_raggedTables (tables : List RaggedTable) :
    (Diagnostic.composite (tables.map RaggedTable.diagnostic)).message
      = .ok ("Parser errors:\n" ++ "\n".intercalate (tables.map fun r => raggedLine r.location)) := by
  have hlines : Diagnostic.messages (tables.map RaggedTable.diagnostic)
      = .ok (tables.map fun r => raggedLine r.location) := by
    induction tables with
    | nil => rfl
    | cons r rest ih =>
        rw [List.map_cons, List.map_cons, Diagnostic.messages, ih]
        rfl
  unfold Diagnostic.message
  rw [hlines]
  rfl

/-- A document is built from a nested stream unless a table is ragged. -/
theorem Document.ofEvents_of_ok {uri : String} {events : List Event} {document : Option Document}
    {errors : List RaggedTable}
    (h : (Run.ofEvents uri false events).outcome = .ok ⟨document, errors⟩) :
    Document.ofEvents uri events = if errors = [] then .ok document
      else .error (.errors (.composite (errors.map RaggedTable.diagnostic))) := by
  unfold ofEvents
  rw [h]
  cases errors with
  | nil => rfl
  | cons r rest => rw [if_neg (List.cons_ne_nil r rest)]

/-- What is seen of the reports on the ragged tables of a stream: the errors of the run, its notes,
and the document, or the error in which the reports are put together. -/
structure Reported (uri : String) (events : List Event) (tables : List (RuleType × List Token))
    (document : Option Document) (reports : List (RuleType × RaggedTable)) : Prop where
  matched : List.Forall₂ ReportedAs tables reports
  outcome : (Run.ofEvents uri false events).outcome = .ok ⟨document, reports.map Prod.snd⟩
  notes : (Run.ofEvents uri false events).log.map LogEntry.text
    = ("Building document for '" ++ (if uri = "" then "<unknown>" else uri) ++ "'")
      :: reports.map fun r => "Error closing '" ++ r.1.name ++ "': " ++ raggedLine r.2.location
  returned : tables = [] → Document.ofEvents uri events = .ok document
  raised : tables ≠ [] → ∃ whole, Document.ofEvents uri events = .error (.errors whole)
    ∧ whole = .composite (reports.map fun r => .raggedTable (some r.2.location) r.2.kept)
    ∧ whole.message = .ok
        ("Parser errors:\n" ++ "\n".intercalate (reports.map fun r => raggedLine r.2.location))

/-- The reports of an evaluation are those that are seen. -/
theorem Forest.Walked.reported {f : Forest} {events : List Event} (hf : f.Walked events)
    (hfits : ∀ e ∈ events, e.Fits) (uri : String) :
    Reported uri events f.raggedTables (f.document? uri []) f.faults := by
  have hrun : Run.ofEvents uri false events = _ :=
    ((Builder.new uri).run_walked false hf).trans (Builder.run_events _ (hf.fits hfits))
  have houtcome : (Run.ofEvents uri false events).outcome
      = .ok ⟨f.document? uri [], f.faults.map Prod.snd⟩ := congrArg Run.outcome hrun
  have hmatched := f.forall₂_faults
  -- there are as many reports as ragged tables
  have hempty : f.faults.map Prod.snd = [] ↔ f.raggedTables = [] := by
    rw [List.map_eq_nil_iff, ← List.length_eq_zero_iff, ← List.length_eq_zero_iff,
      hmatched.length_eq]
  have hdocument := Document.ofEvents_of_ok houtcome
  refine ⟨hmatched, houtcome, ?_, ?_, ?_⟩
  · rw [hrun, List.map_cons, List.map_map]
    rfl
  · intro hnone
    rw [hdocument, if_pos (hempty.2 hnone)]
  · intro hsome
    rw [if_neg fun hnone => hsome (hempty.1 hnone)] at hdocument
    refine ⟨_, hdocument, congrArg Diagnostic.composite List.map_map, ?_⟩
    rw [message_raggedTables, List.map_map]
    rfl

/-- **All reports of table errors agree with the stream.**  A stream that does not nest gives
nothing but its first imbalance.  Otherwise the ragged tables, found by counting items, are the
errors of the run, the lines of the message and the notes after the first one. -/
theorem reports_agree_with_stream (uri : String) {events : List Event}
    (hfits : ∀ e ∈ events, e.Fits) :
    (¬ Nested events → ∃ i, FirstImbalance events i
        ∧ (Run.ofEvents uri false events).outcome = .error (.unbalanced i)
        ∧ Document.ofEvents uri events = .error (.stream (.unbalanced i)))
      ∧ (Nested events → ∃ f : Forest, f.Walked events)
      ∧ ∀ f : Forest, f.Walked events →
        f.instances.map Prod.fst = events.filterMap Event.closes?
          ∧ ∃ document reports, Reported uri events f.raggedTables document reports := by
  refine ⟨?_, Forest.exists_walked, ?_⟩
  · intro hnested
    have hrun := (Builder.new uri).run_imbalance? hfits
    cases hi : Event.imbalance? [] events with
    | none => exact absurd (Event.imbalance?_eq_none_iff.1 hi) hnested
    | some i =>
        rw [hi] at hrun
        refine ⟨i, Event.imbalance?_eq_some_iff.1 hi, hrun, ?_⟩
        unfold Document.ofEvents Run.ofEvents
        rw [hrun]
  · intro f hf
    exact ⟨hf.closings, _, _, hf.reported hfits uri⟩

/-- A ragged table inside another one, both where nobody reads them, and a table with one row. -/
def tablesForest : Forest :=
  [ .rule .examplesTable
      [ .leaf { type := .tableRow, location := ⟨1, 1⟩, items := [⟨3, "a"⟩] },
        .rule .dataTable
          [ .leaf { type := .tableRow, location := ⟨2, 3⟩, items := [⟨5, "b"⟩, ⟨9, "c"⟩] },
            .leaf { type := .tableRow, location := ⟨3, 3⟩, items := [⟨5, "d"⟩, ⟨9, "e"⟩] },
            .leaf { type := .tableRow, location := ⟨4, 3⟩, items := [⟨5, "f"⟩] } ],
        .leaf { type := .tableRow, location := ⟨5, 1⟩ } ],
    .rule .dataTable [.leaf { type := .tableRow, location := ⟨6, 1⟩, items := [⟨3, "g"⟩] }] ]

theorem reports_tablesForest :
    (∀ e ∈ tablesForest.events, e.Fits)
      ∧ tablesForest.raggedTables.map Prod.fst = [.dataTable, .examplesTable]
      ∧ ∃ document reports,
        Reported "a.feature" tablesForest.events tablesForest.raggedTables document reports
          ∧ reports.map (fun r => raggedLine r.2.location)
            = [ "(4:3): inconsistent cell count within the table",
                "(5:1): inconsistent cell count within the table" ] := by
  have hfits : ∀ e ∈ tablesForest.events, e.Fits := by decide
  obtain ⟨-, -, hreports⟩ := reports_agree_with_stream "a.feature" hfits
  obtain ⟨-, document, reports, h⟩ := hreports tablesForest rfl
  have hrun : ((Run.ofEvents "a.feature" false tablesForest.events).outcome).map
      (fun build => build.errors.map fun r => raggedLine r.location)
        = .ok [ "(4:3): inconsistent cell count within the table",
                "(5:1): inconsistent cell count within the table" ] := by rfl
  refine ⟨hfits, by decide, document, reports, h, ?_⟩
  rw [h.outcome] at hrun
  have hlines : (reports.map Prod.snd).map (fun r => raggedLine r.location) = _ :=
    Except.ok.inj hrun
  rwa [List.map_map] at hlines

end Gherkin
