/-
  Gherkin.Proofs.Accounts
  ───────────────────────
  **WHERE THE ELEMENTS OF A DOCUMENT COME FROM.**

  The accounts of `Gherkin.Proofs.Origins`, kept over a run.  The nodes on the
  stack are paid for by the tokens read so far, however oddly they are nested,
  and an event that closes a rule only hands on what its node holds.

    • `Builder.Reaches.accounted`   — the accounts are in order wherever a run
      gets,
    • `nothing_invented_or_doubled` — so the document in the end takes nothing
      twice, and nothing that the stream does not hold.

  Comments are counted apart: a document takes all comments before its end, so
  two documents may both hold one comment, but no document holds it twice.
-/
import Gherkin.Proofs.Comments
import Gherkin.Proofs.Origins

namespace Gherkin

/-! ## §1. Runs. -/

/-- The token that an event reads. -/
def Event.token? : Event → Option Token
  | .leaf token _ => some token
  | _ => none

/-- The tokens that a stream reads. -/
def Event.tokens (events : List Event) : List Token := events.filterMap Event.token?

/-- What the tokens of a stream can give rise to. -/
def Event.origins (events : List Event) : Multiset Origin :=
  (Event.tokens events).flatMap Token.origins

theorem Event.origins_append (es fs : List Event) :
    origins (es ++ fs) = origins es + origins fs := by
  unfold origins tokens
  rw [List.filterMap_append, List.flatMap_append, Multiset.coe_add]

/-- What a token brings to the innermost node. -/
theorem Token.origins_arrival_le (t : Token) (spare : Option RuleType) :
    Value.originsAll (t.arrival.map Prod.snd) ≤ Event.origins [.leaf t spare] := by
  have hevent : Event.origins [.leaf t spare] = t.origins :=
    congrArg Multiset.ofList (List.append_nil t.origins)
  rw [hevent]
  unfold Token.arrival
  split
  · exact Multiset.zero_le _
  · show t.origins + 0 ≤ (t.origins : Multiset Origin)
    rw [add_zero]

/-- The accounts of a run after the events `seen`. -/
structure Progress.Accounted (seen : List Event) (p : Progress) : Prop where
  promised : ∀ n ∈ p.builder.stack, n.Promised fun _ => True
  origins : (p.builder.stack.map Node.origins).sum ≤ Event.origins seen
  gathered : p.builder.comments = Event.comments seen
  comments : ∀ n ∈ p.builder.stack, ∀ d, .element (.document d) ∈ n.items .gherkinDocument →
    d.comments <+: Event.comments seen

theorem Progress.accounted_start (b : Builder) : (Progress.start b).Accounted [] where
  promised := List.forall_mem_singleton.2 (Node.promised_empty .root)
  origins := Multiset.zero_le _
  gathered := rfl
  comments := List.forall_mem_singleton.2 nofun

/-- The comments of the documents on a node, after more arrivals. -/
theorem Node.documents_addAll {n : Node} {arrivals : List (RuleType × Value)} {Q : Document → Prop}
    (hn : ∀ d, .element (.document d) ∈ n.items .gherkinDocument → Q d)
    (ha : ∀ d, (.gherkinDocument, .element (.document d)) ∈ arrivals → Q d) :
    ∀ d, .element (.document d) ∈ (n.addAll arrivals).items .gherkinDocument → Q d := by
  intro d hd
  rw [items_addAll] at hd
  rcases List.mem_append.1 hd with hd | hd
  · exact hn d hd
  · exact ha d (Grouped.mem_arrived.1 hd)

/-- **One event keeps the accounts in order.** -/
theorem Progress.Accounted.moves {seen : List Event} {p next : Progress} {e : Event}
    (h : p.Accounted seen) (hmoves : p.Moves e next) : next.Accounted (seen ++ [e]) := by
  obtain ⟨hpromised, horigins, hgathered, hcomments⟩ := h
  have hnext : next.builder.comments = Event.comments (seen ++ [e]) := by
    rw [hmoves.comments, hgathered, Event.comments_concat]
  have hlonger : ∀ n : Node, (∀ d, .element (.document d) ∈ n.items .gherkinDocument →
      d.comments <+: Event.comments seen) →
      ∀ d, .element (.document d) ∈ n.items .gherkinDocument →
        d.comments <+: Event.comments (seen ++ [e]) := by
    intro n hn d hd
    rw [Event.comments_concat]
    exact (hn d hd).trans (List.prefix_append _ _)
  cases hmoves with
  | @leaf n outer t spare hstack =>
      rw [hstack] at hpromised horigins hcomments
      obtain ⟨hn, houter⟩ := List.forall_mem_cons.1 hpromised
      obtain ⟨hnDocs, houterDocs⟩ := List.forall_mem_cons.1 hcomments
      refine ⟨List.forall_mem_cons.2 ⟨hn.addAll (Token.arrival_promised trivial), houter⟩, ?_, hnext,
        List.forall_mem_cons.2 ⟨?_, fun m hm => hlonger m (houterDocs m hm)⟩⟩
      · show (n.addAll t.arrival).origins + (outer.map Node.origins).sum ≤ _
        rw [Node.origins_addAll, Event.origins_append, add_right_comm]
        exact add_le_add horigins (t.origins_arrival_le spare)
      · refine Node.documents_addAll (hlonger n hnDocs) ?_
        intro d hd
        unfold Token.arrival at hd
        split at hd
        · cases hd
        · cases List.mem_singleton.1 hd
  | opening type spare =>
      refine ⟨List.forall_mem_cons.2 ⟨Node.promised_empty type, hpromised⟩, ?_, hnext,
        List.forall_mem_cons.2 ⟨nofun, fun m hm => hlonger m (hcomments m hm)⟩⟩
      show (Node.empty type).origins + (p.builder.stack.map Node.origins).sum ≤ _
      rw [Node.origins_empty, zero_add, Event.origins_append]
      exact horigins.trans (Multiset.le_add_right _ _)
  | @closing n m inner rules v spare hstack hrules hfiled =>
      rw [hstack] at hpromised horigins hcomments
      obtain ⟨hn, hbelow⟩ := List.forall_mem_cons.1 hpromised
      obtain ⟨hm, hinner⟩ := List.forall_mem_cons.1 hbelow
      obtain ⟨-, hbelowDocs⟩ := List.forall_mem_cons.1 hcomments
      obtain ⟨hmDocs, hinnerDocs⟩ := List.forall_mem_cons.1 hbelowDocs
      refine ⟨List.forall_mem_cons.2 ⟨hm.addAll (hn.arrival _), hinner⟩, ?_, hnext,
        List.forall_mem_cons.2 ⟨?_, fun k hk => hlonger k (hinnerDocs k hk)⟩⟩
      · show (m.addAll (n.arrival p.builder.source)).origins + (inner.map Node.origins).sum ≤ _
        rw [Node.origins_addAll, Event.origins_append]
        -- what the closed rule leaves behind is paid for by its node
        calc m.origins + Value.originsAll ((n.arrival p.builder.source).map Prod.snd)
              + (inner.map Node.origins).sum
            ≤ m.origins + n.origins + (inner.map Node.origins).sum :=
              add_le_add_left (add_le_add_right (hn.origins_arrival _) _) _
          _ = n.origins + (m.origins + (inner.map Node.origins).sum) := by abel
          _ ≤ Event.origins seen := horigins
          _ ≤ _ := Multiset.le_add_right _ _
      · refine Node.documents_addAll (hlonger m hmDocs) ?_
        intro d hd
        obtain ⟨w, -, hpair⟩ := Option.map_eq_some_iff.1 (Option.mem_toList.1 hd)
        obtain ⟨d', harrival, hd'⟩ :=
          Node.arrival_gherkinDocument (Prod.mk.inj hpair).1 p.builder
        rw [harrival] at hd
        cases List.mem_singleton.1 hd
        rw [hd', hgathered, Event.comments_concat]
        exact List.prefix_append _ _

/-- **The accounts are in order wherever a run gets.** -/
theorem Builder.Reaches.accounted {b : Builder} {seen : List Event} {p : Progress}
    (h : b.Reaches seen p) : p.Accounted seen := by
  induction h with
  | start => exact Progress.accounted_start b
  | move _ hmoves ih => exact ih.moves hmoves

/-! ## §2. The document in the end. -/

/-- The tag that a mark is. -/
def Mark.tag? : Mark → Option Tag
  | .tag t => some t
  | _ => none

/-- Place, delimiter and content type of a mark that is a doc string. -/
def Mark.docString? : Mark → Option (Location × String × String)
  | .docString location delimiter contentType _ => some (location, delimiter, contentType)
  | _ => none

namespace Origin

/-- Place, keyword and text of the line of a type. -/
def line? (k : TokenType) : Origin → Option (Location × String × String)
  | .line type location keyword text => if type = k then some (location, keyword, text) else none
  | _ => none

/-- Place and cells of a row. -/
def row? : Origin → Option (Location × List (Int × String))
  | .row location cells => some (location, cells)
  | _ => none

/-- Line, column and name of a tag. -/
def tag? : Origin → Option (UInt32 × Int × String)
  | .tag l column name => some (l, column, name)
  | _ => none

/-- Place, delimiter and content type of a doc string. -/
def docString? : Origin → Option (Location × String × String)
  | .docString location delimiter contentType => some (location, delimiter, contentType)
  | _ => none

end Origin

/-- The origins of a document are among those of the stream, and its comments are the first ones
of the stream. -/
theorem Builder.origins_of_run {b : Builder} {stop : Bool} {events : List Event} {d : Document}
    {errors : List RaggedTable}
    (h : (b.run stop events).outcome = .ok { document := some d, errors }) :
    Mark.origins d.marks ≤ Event.origins events ∧ d.comments <+: Event.comments events := by
  obtain ⟨seen, rest, p, n, outer, rfl, hreaches, hstack, hdocument, -⟩ := run_result h
  obtain ⟨-, horigins, -, hcomments⟩ := hreaches.accounted
  rw [hstack] at horigins hcomments
  have hfirst : n.first? .gherkinDocument = some (.element (.document d)) :=
    Value.reads_document?.bind_eq_some_iff.1 hdocument
  constructor
  · calc Mark.origins d.marks ≤ n.under .gherkinDocument := Node.first?_origins hfirst
      _ ≤ n.origins := n.under_le _
      _ ≤ n.origins + (outer.map Node.origins).sum := Multiset.le_add_right _ _
      _ ≤ Event.origins seen := horigins
      _ ≤ Event.origins (seen ++ rest) := by
        rw [Event.origins_append]
        exact Multiset.le_add_right _ _
  · have hprefix := hcomments n List.mem_cons_self d (List.mem_of_mem_head? hfirst)
    exact hprefix.trans ⟨Event.comments rest, List.flatMap_append.symm⟩

/-- One kind of elements of a document, and what the tokens bring of that kind. -/
theorem Builder.filterMap_of_run {b : Builder} {stop : Bool} {events : List Event} {d : Document}
    {errors : List RaggedTable} {γ : Type} (read : Origin → Option γ) (seen : Mark → Option γ)
    (hseen : ∀ m : Mark, m.origin?.bind read = seen m)
    (h : (b.run stop events).outcome = .ok { document := some d, errors }) :
    (d.marks.filterMap seen : Multiset γ) ≤
      (Event.tokens events).flatMap fun t => t.origins.filterMap read := by
  have horigins := Multiset.filterMap_le_filterMap read (origins_of_run h).1
  unfold Mark.origins Event.origins at horigins
  rw [Multiset.filterMap_coe, Multiset.filterMap_coe, List.filterMap_filterMap,
    List.filterMap_flatMap] at horigins
  simp only [hseen] at horigins
  exact horigins

namespace Token

theorem filterMap_origins_line? {k : TokenType} (hk : k ∈ TokenType.keywordLines) (t : Token) :
    t.origins.filterMap (Origin.line? k)
      = if t.type = k then [(t.location, t.keyword, t.text)] else [] := by
  by_cases h : t.type = k
  · rw [if_pos h, origins_line (h ▸ hk)]
    simp [Origin.line?, h]
  · rw [if_neg h]
    cases htype : t.type <;> rw [htype] at h <;> simp [origins, htype, Origin.line?, h]

theorem filterMap_origins_row? (t : Token) :
    t.origins.filterMap Origin.row?
      = if t.type = .tableRow then [(t.location, t.entries)] else [] := by
  cases htype : t.type <;> simp [origins, htype, Origin.row?]

theorem filterMap_origins_tag? (t : Token) :
    t.origins.filterMap Origin.tag?
      = if t.type = .tagLine then t.items.map fun i => (t.location.line, i.column, i.text)
        else [] := by
  by_cases h : t.type = .tagLine
  · have horigins : t.origins = t.items.map fun i => .tag t.location.line i.column i.text := by
      simp only [origins, h]
    rw [if_pos h, horigins, List.filterMap_map, ← List.filterMap_eq_map']
    rfl
  · rw [if_neg h]
    cases htype : t.type <;> simp_all [origins, Origin.tag?]

theorem filterMap_origins_docString? (t : Token) :
    t.origins.filterMap Origin.docString?
      = if t.type = .docStringSeparator then [(t.location, t.keyword, t.text)] else [] := by
  cases htype : t.type <;> simp [origins, htype, Origin.docString?]

end Token

/-- The comments of a stream are those of its tokens. -/
theorem Event.comments_eq (events : List Event) :
    comments events
      = ((tokens events).filter (·.type = .comment)).map fun t => ⟨t.location, t.text⟩ := by
  induction events with
  | nil => rfl
  | cons e rest ih =>
      cases e with
      | leaf t spare =>
          show t.comment?.toList ++ comments rest
            = ((t :: tokens rest).filter (·.type = .comment)).map _
          rw [ih, Token.comment?]
          by_cases h : t.type = .comment <;> simp [h]
      | opening type spare => exact ih
      | closing type spare => exact ih

/-- **No element is invented, and none is used twice**, on any stream that gives a document.  The
lines of features, rules, backgrounds, scenarios, examples and steps are lines of the stream, each
taken at most as often as it was read; so are the rows with their cells, the tags, the doc strings
and the comments. -/
theorem nothing_invented_or_doubled (b : Builder) (stop : Bool) (events : List Event)
    {d : Document} {errors : List RaggedTable}
    (h : (b.run stop events).outcome = .ok { document := some d, errors }) :
    (∀ k ∈ TokenType.keywordLines, (d.marks.filterMap (Mark.line? k)).Subperm
        (((Event.tokens events).filter (·.type = k)).map fun t => (t.location, t.keyword, t.text)))
      ∧ ((d.marks.filterMap Mark.row?).map fun r => (r.location, r.entries)).Subperm
        (((Event.tokens events).filter (·.type = .tableRow)).map fun t => (t.location, t.entries))
      ∧ ((d.marks.filterMap Mark.tag?).map fun t =>
          (t.location.line, positionValue t.location.column, t.name)).Subperm
        (((Event.tokens events).filter (·.type = .tagLine)).flatMap fun t =>
          t.items.map fun i => (t.location.line, i.column, i.text))
      ∧ (d.marks.filterMap Mark.docString?).Subperm
        (((Event.tokens events).filter (·.type = .docStringSeparator)).map fun t =>
          (t.location, t.keyword, t.text))
      ∧ d.comments.Subperm
        (((Event.tokens events).filter (·.type = .comment)).map fun t => ⟨t.location, t.text⟩) := by
  refine ⟨?_, ?_, ?_, ?_, ?_⟩
  · intro k hk
    have hlines := Builder.filterMap_of_run (Origin.line? k) (Mark.line? k)
      (fun m => by cases m <;> rfl) h
    simp only [Token.filterMap_origins_line? hk, flatMap_ite] at hlines
    exact hlines
  · have hrows := Builder.filterMap_of_run Origin.row?
      (fun m => m.row?.map fun r => (r.location, r.entries)) (fun m => by cases m <;> rfl) h
    simp only [Token.filterMap_origins_row?, flatMap_ite] at hrows
    rw [List.map_filterMap]
    exact hrows
  · have htags := Builder.filterMap_of_run Origin.tag?
      (fun m => m.tag?.map fun t =>
        (t.location.line, positionValue t.location.column, t.name)) (fun m => by cases m <;> rfl) h
    simp only [Token.filterMap_origins_tag?, flatMap_ite_nil] at htags
    rw [List.map_filterMap]
    exact htags
  · have hdocStrings := Builder.filterMap_of_run Origin.docString? Mark.docString?
      (fun m => by cases m <;> rfl) h
    simp only [Token.filterMap_origins_docString?, flatMap_ite] at hdocStrings
    exact hdocStrings
  · rw [← Event.comments_eq]
    exact (Builder.origins_of_run h).2.sublist.subperm

/-- A stream that repeats what is read only once: the tags and the header of a feature, the scenario
of a definition, the line and the table of a step.  The second tag has no place in a document, and
the second table is ragged. -/
def repeatedEvents : List Event :=
  [ .opening .gherkinDocument none,
    .opening .feature none,
    .opening .featureHeader none,
    .opening .tags none,
    .leaf { type := .tagLine, location := ⟨1, 1⟩, items := [⟨1, "@a"⟩] } none,
    .closing .tags none,
    .opening .tags none,
    .leaf { type := .tagLine, location := ⟨2, 1⟩, items := [⟨-1, "@b"⟩] } none,
    .closing .tags none,
    .leaf { type := .featureLine, location := ⟨3, 1⟩, keyword := "Feature", text := "F" } none,
    .closing .featureHeader none,
    .opening .featureHeader none,
    .leaf { type := .featureLine, location := ⟨4, 1⟩, keyword := "Feature", text := "G" } none,
    .closing .featureHeader none,
    .opening .scenarioDefinition none,
    .opening .scenario none,
    .leaf { type := .scenarioLine, location := ⟨5, 3⟩, keyword := "Scenario", text := "S" } none,
    .opening .step none,
    .leaf { type := .stepLine, location := ⟨6, 5⟩, keyword := "* ", text := "x" } none,
    .leaf { type := .stepLine, location := ⟨7, 5⟩, keyword := "* ", text := "y" } none,
    .opening .dataTable none,
    .leaf { type := .tableRow, location := ⟨8, 7⟩, items := [⟨9, "a"⟩] } none,
    .closing .dataTable none,
    .opening .dataTable none,
    .leaf { type := .tableRow, location := ⟨9, 7⟩, items := [⟨9, "b"⟩] } none,
    .leaf { type := .tableRow, location := ⟨10, 7⟩, items := [] } none,
    .closing .dataTable none,
    .closing .step none,
    .closing .scenario none,
    .opening .scenario none,
    .leaf { type := .scenarioLine, location := ⟨11, 3⟩, keyword := "Scenario", text := "T" } none,
    .closing .scenario none,
    .closing .scenarioDefinition none,
    .closing .feature none,
    .closing .gherkinDocument none ]

theorem nothing_doubled_repeatedEvents :
    ∃ d errors, ((Builder.new "").run false repeatedEvents).outcome
        = .ok { document := some d, errors }
      ∧ errors.length = 1
      ∧ d.marks.filterMap (Mark.line? .stepLine) = [(⟨6, 5⟩, "* ", "x")]
      ∧ (d.marks.filterMap (Mark.line? .stepLine)).Subperm
          [(⟨6, 5⟩, "* ", "x"), (⟨7, 5⟩, "* ", "y")]
      ∧ (d.marks.filterMap (Mark.line? .scenarioLine)).Subperm
          [(⟨5, 3⟩, "Scenario", "S"), (⟨11, 3⟩, "Scenario", "T")]
      ∧ ((d.marks.filterMap Mark.tag?).map fun t =>
          (t.location.line, positionValue t.location.column, t.name)).Subperm
            [(1, 1, "@a"), (2, -1, "@b")] := by
  have hrun : ((Builder.new "").run false repeatedEvents).outcome
      = .ok { document := some _, errors := _ } := rfl
  obtain ⟨hlines, -, htags, -, -⟩ :=
    nothing_invented_or_doubled (Builder.new "") false repeatedEvents hrun
  exact ⟨_, _, hrun, rfl, rfl, hlines .stepLine (by decide), hlines .scenarioLine (by decide), htags⟩

end Gherkin
