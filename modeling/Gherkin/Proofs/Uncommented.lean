/-
  Gherkin.Proofs.Uncommented
  ──────────────────────────
  **COMMENTS ARE INVISIBLE TO EVERYTHING ELSE.**

  `uncommented` forgets the comments of documents, of nodes that documents
  were filed in, of builders and of runs.  Two runs that agree up to this go
  on agreeing:

    • `Node.assemble_alike`    — closing two nodes that agree leaves values
      behind that agree, and reports the same,
    • `Progress.Alike.advance` — one event keeps two runs in agreement,
    • `Progress.Alike.drive`   — and so do whole streams, even if one run does
      not see some of the comments that the other one sees.

  Nothing reads a comment but the rule of a document, which hands them on.
-/
import Gherkin.Proofs.Agreement

namespace Gherkin

/-! ## §1. Values without comments. -/

/-- The document without its comments. -/
def Document.uncommented (d : Document) : Document := { d with comments := [] }

mutual

/-- The value without the comments of documents in it. -/
def Value.uncommented : Value → Value
  | .element (.document d) => .element (.document d.uncommented)
  | .node type children => .node type (Value.uncommentedGroups children)
  | v => v

/-- The groups without the comments of documents in them. -/
def Value.uncommentedGroups : List (RuleType × List Value) → List (RuleType × List Value)
  | [] => []
  | (r, values) :: rest => (r, Value.uncommentedAll values) :: Value.uncommentedGroups rest

/-- The values without the comments of documents in them. -/
def Value.uncommentedAll : List Value → List Value
  | [] => []
  | v :: rest => v.uncommented :: Value.uncommentedAll rest

end

/-- The grouping with all values put differently. -/
def Grouped.mapValues {κ α β : Type} (f : α → β) (groups : Grouped κ α) : Grouped κ β :=
  groups.map fun g => (g.1, g.2.map f)

theorem Grouped.items_mapValues {κ α β : Type} [DecidableEq κ] (f : α → β) (key : κ)
    (groups : Grouped κ α) : items key (groups.mapValues f) = (items key groups).map f := by
  induction groups with
  | nil => rfl
  | cons g rest ih =>
      obtain ⟨k, values⟩ := g
      show (if k = key then values.map f else items key (mapValues f rest))
        = (if k = key then values else items key rest).map f
      rw [ih]
      split <;> rfl

theorem Grouped.add_mapValues {κ α β : Type} [DecidableEq κ] (f : α → β) (key : κ) (value : α)
    (groups : Grouped κ α) :
    add key (f value) (groups.mapValues f) = (add key value groups).mapValues f := by
  induction groups with
  | nil => rfl
  | cons g rest ih =>
      obtain ⟨k, values⟩ := g
      show (if k = key then (k, values.map f ++ [f value]) :: mapValues f rest
          else (k, values.map f) :: add key (f value) (mapValues f rest))
        = mapValues f (if k = key then (k, values ++ [value]) :: rest
          else (k, values) :: add key value rest)
      rw [ih]
      split
      · show _ = (k, (values ++ [value]).map f) :: mapValues f rest
        rw [List.map_append]
        rfl
      · rfl

theorem Value.uncommentedAll_eq (values : List Value) :
    Value.uncommentedAll values = values.map Value.uncommented := by
  induction values with
  | nil => rfl
  | cons v rest ih => rw [uncommentedAll, ih, List.map_cons]

theorem Value.uncommentedGroups_eq (groups : Grouped RuleType Value) :
    Value.uncommentedGroups groups = groups.mapValues Value.uncommented := by
  induction groups with
  | nil => rfl
  | cons g rest ih =>
      obtain ⟨r, values⟩ := g
      rw [uncommentedGroups, ih, uncommentedAll_eq]
      rfl

/-! ## §2. Nodes without comments. -/

/-- The node without the comments of documents in it. -/
def Node.uncommented (n : Node) : Node := ⟨n.type, n.children.mapValues Value.uncommented⟩

theorem Value.uncommented_ofNode (n : Node) :
    (Value.ofNode n).uncommented = .ofNode n.uncommented := by
  show Value.node n.type (uncommentedGroups n.children) = _
  rw [uncommentedGroups_eq]
  rfl

/-- Whether a reading of values overlooks the comments of documents. -/
def Value.Blind {α : Type} (read : Value → α) : Prop := ∀ v, read v.uncommented = read v

namespace Value

theorem blind_token? : Blind token? := by
  intro v
  cases v with
  | element e => cases e <;> rfl
  | _ => rfl

theorem blind_textOrEmpty : Blind textOrEmpty := by
  intro v
  cases v with
  | element e => cases e <;> rfl
  | _ => rfl

/-- Elements other than documents stay as they are. -/
theorem uncommented_eq_element_iff {v : Value} {e : Element} (he : ∀ d, e ≠ .document d) :
    v.uncommented = .element e ↔ v = .element e := by
  cases v with
  | element e' =>
      cases e' with
      | document d =>
          constructor
          · intro h
            exact absurd (Value.element.inj h).symm (he _)
          · intro h
            exact absurd (Value.element.inj h).symm (he _)
      | _ => exact Iff.rfl
  | node type children => exact ⟨nofun, nofun⟩
  | _ => exact Iff.rfl

/-- Reading the elements of a class is blind, unless they are documents. -/
theorem Reads.blind {α : Type} {read : Value → Option α} {wrap : α → Element} (h : Reads read wrap)
    (hne : ∀ a d, wrap a ≠ .document d) : Blind read := by
  intro v
  apply Option.ext
  intro a
  rw [h, h, uncommented_eq_element_iff (hne a)]

theorem document?_uncommented (v : Value) :
    v.uncommented.document? = v.document?.map Document.uncommented := by
  cases v with
  | element e => cases e <;> rfl
  | _ => rfl

end Value

/-- The table of an examples section is no document. -/
theorem Examples.splitTable_uncommented (o : Option Value) :
    Examples.splitTable (o.map Value.uncommented) = Examples.splitTable o := by
  cases o with
  | none => rfl
  | some v =>
      cases v with
      | element e => cases e <;> rfl
      | _ => rfl

namespace Node

theorem items_uncommented (n : Node) (c : RuleType) :
    n.uncommented.items c = (n.items c).map Value.uncommented :=
  Grouped.items_mapValues Value.uncommented c n.children

theorem first?_uncommented (n : Node) (c : RuleType) :
    n.uncommented.first? c = (n.first? c).map Value.uncommented := by
  unfold first?
  rw [items_uncommented, List.head?_map]

theorem node?_uncommented (n : Node) (c : RuleType) :
    n.uncommented.node? c = (n.node? c).map uncommented := by
  unfold node?
  rw [first?_uncommented]
  cases n.first? c with
  | none => rfl
  | some v =>
      cases v with
      | element e => cases e <;> rfl
      | node type children =>
          show ((Value.ofNode ⟨type, children⟩).uncommented).node? = _
          rw [Value.uncommented_ofNode]
          rfl
      | _ => rfl

variable {α : Type}

theorem filterMap_items_uncommented {read : Value → Option α} (h : Value.Blind read) (n : Node)
    (c : RuleType) : (n.uncommented.items c).filterMap read = (n.items c).filterMap read := by
  rw [items_uncommented, List.filterMap_map]
  exact List.filterMap_congr fun v _ => h v

theorem bind_first?_uncommented {read : Value → Option α} (h : Value.Blind read) (n : Node)
    (c : RuleType) : (n.uncommented.first? c).bind read = (n.first? c).bind read := by
  rw [first?_uncommented]
  cases n.first? c with
  | none => rfl
  | some v => exact h v

variable (n : Node)

@[simp] theorem token?_uncommented (k : TokenType) : n.uncommented.token? k = n.token? k :=
  bind_first?_uncommented Value.blind_token? n _

@[simp] theorem tokens_uncommented (k : TokenType) : n.uncommented.tokens k = n.tokens k :=
  filterMap_items_uncommented Value.blind_token? n _

@[simp] theorem steps_uncommented : n.uncommented.steps = n.steps :=
  filterMap_items_uncommented (Value.reads_step?.blind nofun) n _

@[simp] theorem examples_uncommented : n.uncommented.examples = n.examples :=
  filterMap_items_uncommented (Value.reads_examples?.blind nofun) n _

@[simp] theorem scenarios_uncommented : n.uncommented.scenarios = n.scenarios :=
  filterMap_items_uncommented (Value.reads_scenario?.blind nofun) n _

@[simp] theorem rules_uncommented : n.uncommented.rules = n.rules :=
  filterMap_items_uncommented (Value.reads_rule?.blind nofun) n _

@[simp] theorem background?_uncommented : n.uncommented.background? = n.background? :=
  bind_first?_uncommented (Value.reads_background?.blind nofun) n _

@[simp] theorem description_uncommented : n.uncommented.description = n.description := by
  unfold description
  rw [first?_uncommented]
  cases n.first? .description with
  | none => rfl
  | some v => exact Value.blind_textOrEmpty v

@[simp] theorem tags_uncommented : n.uncommented.tags = n.tags := by
  unfold tags
  rw [node?_uncommented]
  cases n.node? .tags with
  | none => rfl
  | some inner => simp

theorem document?_uncommented :
    (n.uncommented.first? .gherkinDocument).bind Value.document?
      = ((n.first? .gherkinDocument).bind Value.document?).map Document.uncommented := by
  rw [first?_uncommented]
  cases n.first? .gherkinDocument with
  | none => rfl
  | some v => exact v.document?_uncommented

theorem introduced?_uncommented (c : RuleType) (k : TokenType) :
    n.uncommented.introduced? c k
      = (n.introduced? c k).map fun found => (found.1.uncommented, found.2) := by
  unfold introduced?
  rw [node?_uncommented]
  cases n.node? c with
  | none => rfl
  | some inner =>
      show (inner.uncommented.token? k).map _ = ((inner.token? k).map _).map _
      rw [token?_uncommented]
      cases inner.token? k <;> rfl

end Node

/-! ## §3. What a closing rule stands for. -/

section

variable (n : Node)

theorem Step.ofNode?_uncommented : Step.ofNode? n.uncommented = Step.ofNode? n := by
  unfold Step.ofNode?
  rw [n.token?_uncommented, Node.bind_first?_uncommented (Value.reads_dataTable?.blind nofun),
    Node.bind_first?_uncommented (Value.reads_docString?.blind nofun)]

theorem DocString.ofNode?_uncommented : DocString.ofNode? n.uncommented = DocString.ofNode? n := by
  unfold DocString.ofNode?
  rw [n.token?_uncommented, n.tokens_uncommented]

theorem Background.ofNode?_uncommented :
    Background.ofNode? n.uncommented = Background.ofNode? n := by
  unfold Background.ofNode?
  rw [n.token?_uncommented, n.description_uncommented, n.steps_uncommented]

theorem Scenario.ofNode_uncommented : Scenario.ofNode n.uncommented = Scenario.ofNode n := by
  unfold Scenario.ofNode
  rw [n.introduced?_uncommented, n.tags_uncommented]
  cases n.introduced? .scenario .scenarioLine with
  | none => rfl
  | some found => simp

theorem Examples.ofNode_uncommented : Examples.ofNode n.uncommented = Examples.ofNode n := by
  unfold Examples.ofNode
  rw [n.introduced?_uncommented, n.tags_uncommented]
  cases n.introduced? .examples .examplesLine with
  | none => rfl
  | some found => simp [Node.first?_uncommented, Examples.splitTable_uncommented]

theorem Rule.ofNode?_uncommented : Rule.ofNode? n.uncommented = Rule.ofNode? n := by
  unfold Rule.ofNode?
  rw [n.introduced?_uncommented, n.background?_uncommented, n.scenarios_uncommented]
  cases n.introduced? .ruleHeader .ruleLine with
  | none => rfl
  | some found => simp

theorem Feature.ofNode_uncommented : Feature.ofNode n.uncommented = Feature.ofNode n := by
  unfold Feature.ofNode
  rw [n.introduced?_uncommented, n.background?_uncommented, n.scenarios_uncommented,
    n.rules_uncommented]
  cases n.introduced? .featureHeader .featureLine with
  | none => rfl
  | some found => simp

end

/-- A rule that is assembled, and is no document, is blind for comments. -/
theorem Node.assemble_uncommented {n : Node} (h : n.type ∈ RuleType.assembled)
    (hne : n.type ≠ .gherkinDocument) (source source' : Source) :
    n.uncommented.assemble source = n.assemble source' := by
  have htype : n.uncommented.type = n.type := rfl
  unfold assemble
  rw [htype]
  split
  case h_11 hdocument => exact absurd hdocument hne
  case h_12 => simp_all [RuleType.assembled]
  all_goals simp only [Step.ofNode?_uncommented, DocString.ofNode?_uncommented,
    Background.ofNode?_uncommented, Scenario.ofNode_uncommented, Examples.ofNode_uncommented,
    Rule.ofNode?_uncommented, Feature.ofNode_uncommented, DataTable.ofNode, tokens_uncommented]

/-- **Closing two nodes that agree** up to comments leaves values behind that agree, and reports or
refuses the same. -/
theorem Node.assemble_alike {n m : Node} (h : n.uncommented = m.uncommented) (uri : String)
    (comments comments' : List Comment) :
    (n.assemble (.of uri comments)).map Value.uncommented
      = (m.assemble (.of uri comments')).map Value.uncommented := by
  have htype : n.uncommented.type = m.uncommented.type := congrArg Node.type h
  change n.type = m.type at htype
  by_cases hgen : n.type ∈ RuleType.assembled
  · by_cases hdocument : n.type = .gherkinDocument
    -- a document hands its comments on; all else in it agrees
    · rw [assemble_gherkinDocument hdocument, assemble_gherkinDocument (htype ▸ hdocument),
        ← bind_first?_uncommented (Value.reads_feature?.blind nofun) n,
        ← bind_first?_uncommented (Value.reads_feature?.blind nofun) m, h]
      rfl
    · rw [← assemble_uncommented hgen hdocument (.of uri []), h,
        assemble_uncommented (htype ▸ hgen) (htype ▸ hdocument) _ (.of uri comments')]
  · rw [assemble_generic hgen, assemble_generic (htype ▸ hgen)]
    show Except.ok (Value.uncommented _) = Except.ok (Value.uncommented _)
    rw [Value.uncommented_ofNode, Value.uncommented_ofNode, h]

/-! ## §4. Looking past comments. -/

theorem Node.add_uncommented (n : Node) (c : RuleType) (v : Value) :
    (n.add c v).uncommented = n.uncommented.add c v.uncommented := by
  unfold uncommented add
  rw [Grouped.add_mapValues]

/-- Looking past the comments of documents. -/
def View.uncommented : View where
  node := Node.uncommented
  value _ := Value.uncommented
  type_eq {n m} h := by
    have htype : n.uncommented.type = m.uncommented.type := congrArg Node.type h
    exact htype
  add_eq h hv := by rw [Node.add_uncommented, Node.add_uncommented, h, hv]
  assemble_eq h uri comments comments' := Node.assemble_alike h uri comments comments'

/-! ## §5. Runs. -/

/-- Whether two runs agree between two events, up to comments. -/
structure Progress.Alike (p q : Progress) : Prop where
  uri : p.builder.uri = q.builder.uri
  documentUri : p.builder.documentUri = q.builder.documentUri
  stack : p.builder.stack.map Node.uncommented = q.builder.stack.map Node.uncommented
  openRules : p.openRules = q.openRules
  errors : p.errors = q.errors
  log : p.log = q.log

/-- Whether two runs agree after an event, in how it ends and in what comes next. -/
inductive Advance.Alike : Advance → Advance → Prop
  | goOn {p q : Progress} : p.Alike q → Alike (.goOn p) (.goOn q)
  | stop {p q : Progress} : p.Alike q → Alike (.stop p) (.stop q)
  | fail {p q : Progress} (fault : StreamFault) : p.Alike q → Alike (.fail fault p) (.fail fault q)

namespace Progress

theorem Alike.refl (p : Progress) : p.Alike p := ⟨rfl, rfl, rfl, rfl, rfl, rfl⟩

variable {p q : Progress}

/-- Runs that agree look the same past comments. -/
theorem Alike.agree (h : p.Alike q) : p.Agree .uncommented q p q where
  uri := h.uri
  documentUri := h.documentUri
  stack := h.stack
  openRules := h.openRules
  errors := ⟨[], (List.append_nil _).symm, (List.append_nil _).symm⟩
  log := ⟨[], (List.append_nil _).symm, (List.append_nil _).symm⟩

/-- Runs that look the same since they agreed have reported the same altogether. -/
theorem Alike.of_agree {p' q' : Progress} (h : p.Alike q) (hnext : p.Agree .uncommented q p' q') :
    p'.Alike q' where
  uri := hnext.uri
  documentUri := hnext.documentUri
  stack := hnext.stack
  openRules := hnext.openRules
  errors := by
    obtain ⟨new, hp, hq⟩ := hnext.errors
    rw [hp, hq, h.errors]
  log := by
    obtain ⟨new, hp, hq⟩ := hnext.log
    rw [hp, hq, h.log]

/-- The innermost nodes of two runs that agree. -/
theorem Alike.stack_cons {n : Node} {outer : List Node} (h : p.Alike q)
    (hstack : p.builder.stack = n :: outer) :
    ∃ m outer', q.builder.stack = m :: outer' ∧ n.uncommented = m.uncommented
      ∧ outer.map Node.uncommented = outer'.map Node.uncommented :=
  h.agree.stack_cons hstack

/-- **One event keeps two runs in agreement.** -/
theorem Alike.advance (h : p.Alike q) (hp : p.InStep) (stop : Bool) (e : Event) :
    Advance.Alike (p.advance stop e) (q.advance stop e) := by
  have hadvance := h.agree.advance hp stop e
  generalize p.advance stop e = x at hadvance ⊢
  generalize q.advance stop e = y at hadvance ⊢
  cases hadvance with
  | goOn hnext => exact .goOn (h.of_agree hnext)
  | stop hnext => exact .stop (h.of_agree hnext)
  | fail fault hnext => exact .fail fault (h.of_agree hnext)

/-- A comment is read as if nothing had been read. -/
theorem Alike.comment (h : p.Alike q) (hp : p.InStep) {t : Token} (ht : t.type = .comment)
    (stop : Bool) (spare : Option RuleType) :
    ∃ next, p.advance stop (.leaf t spare) = .goOn next ∧ next.Alike q := by
  obtain ⟨n, outer, hstack⟩ := hp.innermost
  have harrival : t.arrival = [] := if_pos ht
  refine ⟨_, advance_leaf hstack stop t spare, h.uri, h.documentUri, ?_, h.openRules, h.errors,
    h.log⟩
  rw [harrival, Node.addAll_nil, ← hstack]
  exact h.stack

end Progress

/-! ## §6. Streams without some of their comments. -/

/-- Whether a stream is left of another one when some of its comments are dropped. -/
inductive CommentsDropped : List Event → List Event → Prop
  | nil : CommentsDropped [] []
  | keep (e : Event) {events kept : List Event} :
      CommentsDropped events kept → CommentsDropped (e :: events) (e :: kept)
  | drop (t : Token) (spare : Option RuleType) {events kept : List Event} :
      t.type = .comment → CommentsDropped events kept →
      CommentsDropped (.leaf t spare :: events) kept

/-- The result without the comments of its document. -/
def Build.uncommented (build : Build) : Build :=
  { build with document := build.document.map Document.uncommented }

/-- What a run shows of itself, up to the comments of its document. -/
def Run.shown (run : Run) : Except StreamFault Build × List LogEntry :=
  (run.outcome.map Build.uncommented, run.log)

namespace Progress

variable {p q : Progress}

theorem Alike.finish (h : p.Alike q) (hp : p.InStep) : p.finish.shown = q.finish.shown := by
  obtain ⟨n, outer, hstack⟩ := hp.innermost
  obtain ⟨m, outer', hstack', hn, -⟩ := h.stack_cons hstack
  have hdocument : ((n.first? .gherkinDocument).bind Value.document?).map Document.uncommented
      = ((m.first? .gherkinDocument).bind Value.document?).map Document.uncommented := by
    rw [← n.document?_uncommented, hn, m.document?_uncommented]
  rw [finish_eq hstack, finish_eq hstack']
  show (Except.ok (Build.mk _ p.errors), p.log) = (Except.ok (Build.mk _ q.errors), q.log)
  rw [hdocument, h.errors, h.log]

/-- **Two runs that agree end alike**, even if one of them does not see some of the comments. -/
theorem Alike.drive {events kept : List Event} (hdropped : CommentsDropped events kept)
    (h : p.Alike q) (hp : p.InStep) (stop : Bool) :
    (p.drive stop events).shown = (q.drive stop kept).shown := by
  induction hdropped generalizing p q with
  | nil =>
      unfold Progress.drive
      rw [← h.openRules]
      cases p.openRules with
      | nil => exact h.finish hp
      | cons innermost outer =>
          show (Except.error _, p.log) = (Except.error _, q.log)
          rw [h.log]
  | keep e hrest ih =>
      have hadvance := h.advance hp stop e
      generalize hx : p.advance stop e = x at hadvance
      generalize hy : q.advance stop e = y at hadvance
      cases hadvance with
      | goOn hnext =>
          rw [drive_goOn hx, drive_goOn hy]
          exact ih hnext (hp.next (by rw [hx]; rfl))
      | stop hnext =>
          rw [drive_stop hx, drive_stop hy]
          exact hnext.finish (hp.next (by rw [hx]; rfl))
      | @fail next next' fault hnext =>
          rw [drive_fail hx, drive_fail hy]
          show (Except.error fault, next.log) = (Except.error fault, next'.log)
          rw [hnext.log]
  | drop t spare ht _ ih =>
      obtain ⟨next, hnext, halike⟩ := h.comment hp ht stop spare
      rw [drive_goOn hnext]
      exact ih halike (hp.next (by rw [hnext]; rfl))

end Progress

end Gherkin
