/-
  Gherkin.Proofs.Replay
  ─────────────────────
  **A RUN OVER A WALK EVALUATES THE FOREST.**

  A builder works on a stack, event by event; `Forest.build` works on the
  forest, from the leaves up.  Both give the same.

    • `Progress.after` — where a run stands after the walk of a forest: the
      values of the forest have arrived at the innermost node, its comments and
      its ragged tables have been noted, everything else is as before,
    • `Progress.drive_events` — a run gets there, whatever events follow,
    • `Builder.run_events` — the whole run over the walk of a forest,
    • `run_walk_eq_build` — its outcome, and what the evaluation takes for the
      document, its comments and the ragged tables.

  The first statement is about any stack and any rest of the stream; this is
  what the induction over the forest needs.
-/
import Gherkin.Proofs.Closing
import Gherkin.Proofs.Evaluation

namespace Gherkin

/-! ## §1. After the walk of a forest. -/

/-- The builder after the walk of a forest. -/
def Builder.after (f : Forest) (b : Builder) : Builder :=
  { b with comments := b.comments ++ f.comments
           stack := b.stack.modifyHead (Node.addAll (f.arrivals b.documentUri b.comments)) }

/-- The run after the walk of a forest. -/
def Progress.after (f : Forest) (p : Progress) : Progress :=
  { p with builder := p.builder.after f
           errors := p.errors ++ f.faults.map Prod.snd
           log := p.log ++ f.faults.map fun fault => fault.2.note fault.1 }

namespace Progress

theorem after_nil (p : Progress) : p.after [] = p := by
  have hstack : p.builder.stack.modifyHead (Node.addAll []) = p.builder.stack := by
    cases p.builder.stack <;> rfl
  show { p with builder := { p.builder with comments := p.builder.comments ++ []
                                            stack := p.builder.stack.modifyHead (Node.addAll []) }
                errors := p.errors ++ [], log := p.log ++ [] } = p
  rw [hstack, List.append_nil, List.append_nil, List.append_nil]

/-- One token, then the rest of the forest. -/
theorem after_leaf {p : Progress} {n : Node} {outer : List Node} (h : p.builder.stack = n :: outer)
    (t : Token) (rest : Forest) :
    Progress.after rest { p with builder :=
      { p.builder with comments := p.builder.comments ++ t.comment?.toList
                       stack := n.addAll t.arrival :: outer } }
      = p.after (.leaf t :: rest) := by
  unfold after Builder.after
  rw [Forest.arrivals_leaf, Forest.comments_leaf, Forest.faults_leaf, h]
  simp only [List.modifyHead_cons, Node.addAll_append, List.append_assoc]

/-- One rule, then the rest of the forest. -/
theorem after_rule {p : Progress} {n : Node} {outer : List Node} (h : p.builder.stack = n :: outer)
    (type : RuleType) (children rest : Forest) :
    Progress.after rest
      { builder :=
          { p.builder with
            comments := p.builder.comments ++ children.comments
            stack := n.addAll ((Node.ofArrivals type
                (children.arrivals p.builder.documentUri p.builder.comments)).arrival
              (.of p.builder.documentUri (p.builder.comments ++ children.comments))) :: outer }
        openRules := p.openRules
        errors := p.errors ++ (children.faults.map Prod.snd
          ++ (type.fault? (children.direct .tableRow)).toList)
        log := p.log ++ (children.faults.map (fun fault => fault.2.note fault.1)
          ++ ((type.fault? (children.direct .tableRow)).map (RaggedTable.note type)).toList) }
      = p.after (.rule type children :: rest) := by
  unfold after Builder.after
  rw [Forest.arrivals_rule, Forest.comments_rule, Forest.faults_rule, h]
  simp only [List.modifyHead_cons, Node.addAll_append, List.append_assoc, List.map_append]
  cases type.fault? (children.direct .tableRow) <;> rfl

/-! ## §2. A run gets there. -/

/-- **A run over the walk of a forest** gets to `after`, whatever follows. -/
theorem drive_events (f : Forest) (hf : ∀ t ∈ f.tokens, t.Fits) :
    ∀ (p : Progress) (n : Node) (outer : List Node), p.builder.stack = n :: outer →
      ∀ rest, p.drive false (f.events ++ rest) = (p.after f).drive false rest := by
  induction f using Forest.induction with
  | nil =>
      intro p n outer h rest
      rw [after_nil]
      rfl
  | leaf t f ih =>
      intro p n outer h rest
      rw [Forest.tokens_leaf] at hf
      rw [Forest.events_leaf, List.cons_append, drive_goOn (advance_leaf h false t none),
        ih (fun u hu => hf u (List.mem_cons_of_mem _ hu)) _ _ _ rfl, after_leaf h]
  | rule type children f ihc ihf =>
      intro p n outer h rest
      rw [Forest.tokens_rule] at hf
      have hchildren : ∀ t ∈ children.tokens, t.Fits :=
        fun t ht => hf t (List.mem_append_left _ ht)
      have hbelow : ∀ t ∈ f.tokens, t.Fits := fun t ht => hf t (List.mem_append_right _ ht)
      -- the opening, then the children on an empty node
      rw [Forest.events_rule, List.cons_append, drive_goOn (advance_opening p false type none),
        List.append_assoc, List.cons_append, ihc hchildren _ (.empty type) (n :: outer)
          (by rw [Builder.stack_openRule, h])]
      set inside := Progress.after children
        { p with builder := p.builder.openRule type, openRules := type :: p.openRules } with hinside
      have hstack : inside.builder.stack = Node.ofArrivals type
          (children.arrivals p.builder.documentUri p.builder.comments) :: n :: outer := by
        rw [← Node.addAll_empty, ← h]
        rfl
      have hsource : inside.builder.source
          = .of p.builder.documentUri (p.builder.comments ++ children.comments) := rfl
      have hok : ∀ r, (Node.ofArrivals type (children.arrivals p.builder.documentUri
          p.builder.comments)).assemble inside.builder.source ≠ .error (.rejected r) := by
        intro r
        rw [hsource]
        exact (Forest.node_promised _ _ _ hchildren).not_rejected _ _ r
      -- the closing, then the rest of the forest
      rw [drive_goOn
          ((advance_closing rfl false none).trans (close_eq hstack hok type p.openRules)),
        ihf hbelow _ _ _ rfl, Forest.report?_node _ _ _ hchildren, hsource, ← after_rule h]
      congr 2
      simp only [hinside, after, List.append_assoc]
      rfl

end Progress

/-! ## §3. Whole runs. -/

/-- **A whole run over the walk of a forest**: outcome, notes and the builder at the end. -/
theorem Builder.run_events (b : Builder) {f : Forest} (hf : ∀ t ∈ f.tokens, t.Fits) :
    b.run false f.events =
      { outcome := .ok (f.build b.uri)
        log := .building b.uri :: f.faults.map fun fault => fault.2.note fault.1
        builder := b.reset.after f } := by
  have hrun := Progress.drive_events f hf (Progress.start b) (.empty .root) [] rfl []
  rw [List.append_nil] at hrun
  have hdocument : (b.reset.after f).document? = .ok (f.document? b.uri []) := by
    rw [← Forest.head?_arrived_gherkinDocument]
    show Except.ok (((Node.addAll (f.arrivals b.uri []) (.empty .root)).items _).head?.bind _) = _
    rw [Node.items_addAll]
    rfl
  unfold Builder.run
  rw [hrun]
  show Progress.finish ⟨b.reset.after f, [], [] ++ _, [.building b.uri] ++ _⟩ = _
  unfold Progress.finish
  simp only [hdocument, List.nil_append]
  rfl

/-- **A run over the walk of any forest evaluates it.**  The document is the value of the first
tree that is one; its comments are all those before its end; every rule has a value, and a table
has all its rows in it, even when it is reported. -/
theorem run_walk_eq_build (uri : String) (f : Forest) (hf : ∀ t ∈ f.tokens, t.Fits) :
    (Run.ofEvents uri false f.events).outcome = .ok (f.build uri)
      ∧ ((∀ t ∈ f, t.category ≠ .gherkinDocument) → (f.build uri).document = none)
      ∧ (∀ front children later : Forest, f = front ++ .rule .gherkinDocument children :: later →
          (∀ t ∈ front, t.category ≠ .gherkinDocument) →
          ∃ d, (f.build uri).document = some d
            ∧ (Tree.rule .gherkinDocument children).filed? uri front.comments
                = some (.element (.document d))
            ∧ d.comments = Forest.comments (front ++ children) ∧ d.uri = uri)
      ∧ (∀ before type (children : Forest), (∀ t ∈ children.tokens, t ∈ f.tokens) →
          (∃ v, (Tree.rule type children).filed? uri before = some v)
            ∧ ∀ wrap, type.tableValue? = some wrap → (Tree.rule type children).filed? uri before
                = some (wrap ((children.direct .tableRow).map Token.row))) := by
  refine ⟨?_, ?_, ?_, ?_⟩
  · show ((Builder.new uri).run false f.events).outcome = _
    rw [Builder.run_events _ hf]
    rfl
  · exact Forest.document?_eq_none uri []
  · rintro front children later rfl hfront
    refine ⟨_, Forest.document?_split uri [] hfront, ?_, rfl, rfl⟩
    rw [Forest.filed?_gherkinDocument, Forest.comments_append]
    rfl
  · intro before type children hchildren
    have hbelow : ∀ t ∈ children.tokens, t.Fits := fun t ht => hf t (hchildren t ht)
    exact ⟨Forest.filed?_isSome uri before type hbelow,
      fun wrap htable => Forest.filed?_table uri before htable hbelow⟩

/-- A step with two rows of different lengths and a comment between them. -/
def raggedStep : Tree :=
  .rule .step
    [ .leaf { type := .stepLine, location := ⟨4, 5⟩, keyword := "Given ", text := "x" },
      .rule .dataTable
        [ .leaf { type := .tableRow, location := ⟨5, 7⟩, items := [⟨9, "a"⟩, ⟨13, "b"⟩] },
          .leaf { type := .comment, location := ⟨6, 7⟩, text := "# second" },
          .leaf { type := .tableRow, location := ⟨7, 7⟩, items := [⟨9, "c"⟩] } ] ]

/-- A document with a ragged table, comments before and after its end, and a second document. -/
def raggedForest : Forest :=
  [ .leaf { type := .comment, location := ⟨1, 1⟩, text := "# first" },
    .rule .gherkinDocument
      [ .rule .feature
          [ .rule .featureHeader
              [.leaf
                { type := .featureLine, location := ⟨2, 1⟩, keyword := "Feature", text := "F" }],
            .rule .scenarioDefinition
              [ .rule .scenario
                  [ .leaf
                      { type := .scenarioLine, location := ⟨3, 3⟩, keyword := "Scenario"
                        text := "S" },
                    raggedStep ] ] ] ],
    .leaf { type := .comment, location := ⟨8, 1⟩, text := "# third" },
    .rule .gherkinDocument [] ]

theorem run_raggedForest :
    (∀ t ∈ raggedForest.tokens, t.Fits)
      ∧ ∃ table : DataTable, table.rows.length = 2
        ∧ (Run.ofEvents "a.feature" false raggedForest.events).outcome = .ok
            { document := some
                { uri := "a.feature"
                  feature := some
                    { location := ⟨2, 1⟩, tags := [], language := "", keyword := "Feature"
                      name := "F", description := ""
                      children := [.scenario
                        { location := ⟨3, 3⟩, tags := [], keyword := "Scenario", name := "S"
                          description := "", examples := []
                          steps := [{ location := ⟨4, 5⟩, keyword := "Given ", text := "x"
                                      docString := none, dataTable := some table }] }] }
                  comments := [⟨⟨1, 1⟩, "# first"⟩, ⟨⟨6, 7⟩, "# second"⟩] }
              errors := [⟨⟨7, 7⟩, .element (.dataTable table)⟩] } := by
  have hfits : ∀ t ∈ raggedForest.tokens, t.Fits := by decide
  refine ⟨hfits, ⟨⟨5, 7⟩, [⟨⟨5, 7⟩, [⟨⟨5, 9⟩, "a"⟩, ⟨⟨5, 13⟩, "b"⟩]⟩, ⟨⟨7, 7⟩, [⟨⟨7, 9⟩, "c"⟩]⟩]⟩,
    rfl, ?_⟩
  exact (run_walk_eq_build "a.feature" raggedForest hfits).1

end Gherkin
