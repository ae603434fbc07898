/-
  Gherkin.Proofs.Extent
  ─────────────────────
  **HOW MUCH OF ITS CHILDREN A RULE READS.**

  A rule reads a few categories of its children, some of them in full, of
  others the first child only; a rule that stays a node is read by the rule
  around it in the same way.  `RuleType.reads` lists all of this, and nothing
  that is not listed can be noticed:

    • `Value.seen`, `Node.seenAs` — what is left when everything that is not
      read is dropped, at all depths, and the order of the categories with it,
    • `Node.seenAs_eq_iff` — two nodes look the same exactly if they agree on
      what is read of them,
    • `Step.ofNode?_seen`, … — then the same is made of them,
    • `View.read` — so closing respects this way of looking at nodes.
-/
import Gherkin.Proofs.Agreement
import Gherkin.Proofs.Uncommented

namespace Gherkin

/-! ## §1. The categories that are read. -/

/-- How much of a category is read. -/
inductive Extent where
  /-- The first child only. -/
  | first
  /-- All children. -/
  | all
  deriving DecidableEq

/-- The part of some children that is read. -/
def Extent.part {α : Type} : Extent → List α → List α
  | .first, values => values.take 1
  | .all, values => values

/-- The categories that are read of a rule. -/
def RuleType.reads : RuleType → List (RuleType × Extent)
  | .root => [(.gherkinDocument, .first)]
  | .gherkinDocument => [(.feature, .first)]
  | .feature =>
    [(.featureHeader, .first), (.background, .first), (.scenarioDefinition, .all), (.rule, .all)]
  | .featureHeader => [(.leaf .featureLine, .first), (.tags, .first), (.description, .first)]
  | .rule => [(.ruleHeader, .first), (.background, .first), (.scenarioDefinition, .all)]
  | .ruleHeader => [(.leaf .ruleLine, .first), (.description, .first)]
  | .background => [(.leaf .backgroundLine, .first), (.description, .first), (.step, .all)]
  | .scenarioDefinition => [(.tags, .first), (.scenario, .first)]
  | .scenario =>
    [(.leaf .scenarioLine, .first), (.description, .first), (.step, .all),
      (.examplesDefinition, .all)]
  | .examplesDefinition => [(.tags, .first), (.examples, .first)]
  | .examples => [(.leaf .examplesLine, .first), (.description, .first), (.examplesTable, .first)]
  | .examplesTable => [(.leaf .tableRow, .all)]
  | .dataTable => [(.leaf .tableRow, .all)]
  | .step => [(.leaf .stepLine, .first), (.dataTable, .first), (.docString, .first)]
  | .docString => [(.leaf .docStringSeparator, .first), (.leaf .other, .all)]
  | .description => [(.leaf .other, .all)]
  | .tags => [(.leaf .tagLine, .all)]
  | _ => []

namespace Extent

variable {α : Type}

/-- More of the same at the end of two lists does not tell them apart. -/
theorem part_append (e : Extent) {as bs more : List α} (h : e.part as = e.part bs) :
    e.part (as ++ more) = e.part (bs ++ more) := by
  cases e with
  | first =>
      -- only two empty lists let the rest through
      cases as with
      | nil =>
          cases bs with
          | nil => rfl
          | cons b bs => cases h
      | cons a as =>
          cases bs with
          | nil => cases h
          | cons b bs => exact h
  | all =>
      have heq : as = bs := h
      rw [heq]

theorem head?_of_part {as bs : List α} (h : first.part as = first.part bs) :
    as.head? = bs.head? := by
  have hhead := congrArg List.head? h
  change (as.take 1).head? = (bs.take 1).head? at hhead
  rw [List.head?_take, List.head?_take] at hhead
  exact hhead

end Extent

/-! ## §2. What is left when everything else is dropped. -/

/-- The part of some groups that is read of a rule, in the order of the list of categories. -/
def RuleType.extract (r : RuleType) (groups : Grouped RuleType Value) :
    List (RuleType × List Value) :=
  r.reads.map fun p => (p.1, p.2.part (groups.items p.1))

mutual

/-- What can be seen of a value that is filed under a category. -/
def Value.seen (c : RuleType) : Value → Value
  | .node type children => .node type (c.extract (Value.seenGroups children))
  | v => v.uncommented

/-- What can be seen of the values in some groups. -/
def Value.seenGroups : List (RuleType × List Value) → List (RuleType × List Value)
  | [] => []
  | (c, values) :: rest => (c, Value.seenAll c values) :: Value.seenGroups rest

/-- What can be seen of some values that are filed under one category. -/
def Value.seenAll (c : RuleType) : List Value → List Value
  | [] => []
  | v :: rest => v.seen c :: Value.seenAll c rest

end

/-- What can be seen of a node that is read as a rule of a type. -/
def Node.seenAs (c : RuleType) (n : Node) : Node :=
  ⟨n.type, c.extract (Value.seenGroups n.children)⟩

namespace Value

theorem seenAll_eq (c : RuleType) (values : List Value) :
    seenAll c values = values.map (seen c) := by
  induction values with
  | nil => rfl
  | cons v rest ih => rw [seenAll, ih, List.map_cons]

theorem items_seenGroups (c : RuleType) (groups : Grouped RuleType Value) :
    Grouped.items c (seenGroups groups) = (groups.items c).map (seen c) := by
  induction groups with
  | nil => rfl
  | cons g rest ih =>
      obtain ⟨k, values⟩ := g
      show (if k = c then seenAll k values else Grouped.items c (seenGroups rest))
        = (if k = c then values else Grouped.items c rest).map (seen c)
      by_cases h : k = c
      · rw [if_pos h, if_pos h, h, seenAll_eq]
      · rw [if_neg h, if_neg h, ih]

theorem seen_ofNode (c : RuleType) (n : Node) : (ofNode n).seen c = .ofNode (n.seenAs c) := rfl

/-- Whether a reading of values finds the same in what can be seen of them. -/
def Steady {α : Type} (read : Value → α) : Prop := ∀ c v, read (v.seen c) = read v

/-- A reading that overlooks comments, and does not look into nodes, is steady. -/
theorem Blind.steady {α : Type} {read : Value → α} (h : Blind read)
    (hnode : ∀ type children children', read (.node type children) = read (.node type children')) :
    Steady read := by
  intro c v
  cases v with
  | node type children => exact hnode type _ _
  | element e => exact h (.element e)
  | _ => rfl

theorem steady_token? : Steady token? := blind_token?.steady fun _ _ _ => rfl

theorem steady_textOrEmpty : Steady textOrEmpty := blind_textOrEmpty.steady fun _ _ _ => rfl

/-- Reading the elements of a class is steady, unless they are documents. -/
theorem Reads.steady {α : Type} {read : Value → Option α} {wrap : α → Element}
    (h : Reads read wrap) (hne : ∀ a d, wrap a ≠ .document d) : Steady read := by
  refine (h.blind hne).steady ?_
  intro type children children'
  have hnone : ∀ groups, read (.node type groups) = none := by
    intro groups
    apply Option.eq_none_iff_forall_ne_some.2
    intro a ha
    cases (h _ a).1 ha
  rw [hnone, hnone]

theorem node?_seen (c : RuleType) (v : Value) :
    (v.seen c).node? = v.node?.map (Node.seenAs c) := by
  cases v with
  | element e => cases e <;> rfl
  | _ => rfl

end Value

/-- The table of an examples section is no node. -/
theorem Examples.splitTable_seen (c : RuleType) (o : Option Value) :
    Examples.splitTable (o.map (Value.seen c)) = Examples.splitTable o := by
  cases o with
  | none => rfl
  | some v =>
      cases v with
      | element e => exact Examples.splitTable_uncommented (some (.element e))
      | _ => rfl

/-! ## §3. Reading two nodes that look the same. -/

namespace Node

theorem type_eq_of_seenAs {r s : RuleType} {n m : Node} (h : n.seenAs r = m.seenAs s) :
    n.type = m.type := by
  have htype : (n.seenAs r).type = (m.seenAs s).type := congrArg type h
  exact htype

/-- **Two nodes look the same** exactly if they agree on what is read of them. -/
theorem seenAs_eq_iff {r : RuleType} {n m : Node} :
    n.seenAs r = m.seenAs r ↔ n.type = m.type ∧ ∀ c e, (c, e) ∈ r.reads →
      e.part ((n.items c).map (Value.seen c)) = e.part ((m.items c).map (Value.seen c)) := by
  unfold seenAs
  rw [Node.mk.injEq]
  apply and_congr_right
  intro _
  unfold RuleType.extract
  rw [List.map_inj_left]
  constructor
  · intro h c e hread
    have hpart := (Prod.mk.inj (h (c, e) hread)).2
    rw [Value.items_seenGroups, Value.items_seenGroups] at hpart
    exact hpart
  · rintro h ⟨c, e⟩ hread
    rw [Value.items_seenGroups, Value.items_seenGroups]
    exact Prod.ext rfl (h c e hread)

section

variable {r : RuleType} {n m : Node} (h : n.seenAs r = m.seenAs r) {α : Type}
include h

theorem items_seen {c : RuleType} (hread : (c, .all) ∈ r.reads) :
    (n.items c).map (Value.seen c) = (m.items c).map (Value.seen c) :=
  (seenAs_eq_iff.1 h).2 c .all hread

theorem first?_seen {c : RuleType} (hread : (c, .first) ∈ r.reads) :
    (n.first? c).map (Value.seen c) = (m.first? c).map (Value.seen c) := by
  have hhead := Extent.head?_of_part ((seenAs_eq_iff.1 h).2 c .first hread)
  rw [List.head?_map, List.head?_map] at hhead
  exact hhead

/-- What is read of all children of a category. -/
theorem filterMap_items_seen {read : Value → Option α} (hsteady : Value.Steady read)
    {c : RuleType} (hread : (c, .all) ∈ r.reads) :
    (n.items c).filterMap read = (m.items c).filterMap read := by
  have hforget : ∀ k : Node, (k.items c).filterMap read
      = ((k.items c).map (Value.seen c)).filterMap read := by
    intro k
    rw [List.filterMap_map]
    exact List.filterMap_congr fun v _ => (hsteady c v).symm
  rw [hforget n, hforget m, items_seen h hread]

/-- What is read of the first child of a category. -/
theorem bind_first?_seen {read : Value → Option α} (hsteady : Value.Steady read)
    {c : RuleType} (hread : (c, .first) ∈ r.reads) :
    (n.first? c).bind read = (m.first? c).bind read := by
  have hforget : ∀ k : Node, (k.first? c).bind read
      = ((k.first? c).map (Value.seen c)).bind read := by
    intro k
    cases k.first? c with
    | none => rfl
    | some v => exact (hsteady c v).symm
  rw [hforget n, hforget m, first?_seen h hread]

theorem token?_seen {k : TokenType} (hread : (.leaf k, .first) ∈ r.reads) :
    n.token? k = m.token? k :=
  bind_first?_seen h Value.steady_token? hread

theorem tokens_seen {k : TokenType} (hread : (.leaf k, .all) ∈ r.reads) :
    n.tokens k = m.tokens k :=
  filterMap_items_seen h Value.steady_token? hread

theorem steps_seen (hread : (.step, .all) ∈ r.reads) : n.steps = m.steps :=
  filterMap_items_seen h (Value.reads_step?.steady nofun) hread

theorem examples_seen (hread : (.examplesDefinition, .all) ∈ r.reads) :
    n.examples = m.examples :=
  filterMap_items_seen h (Value.reads_examples?.steady nofun) hread

theorem scenarios_seen (hread : (.scenarioDefinition, .all) ∈ r.reads) :
    n.scenarios = m.scenarios :=
  filterMap_items_seen h (Value.reads_scenario?.steady nofun) hread

theorem rules_seen (hread : (.rule, .all) ∈ r.reads) : n.rules = m.rules :=
  filterMap_items_seen h (Value.reads_rule?.steady nofun) hread

theorem background?_seen (hread : (.background, .first) ∈ r.reads) :
    n.background? = m.background? :=
  bind_first?_seen h (Value.reads_background?.steady nofun) hread

theorem description_seen (hread : (.description, .first) ∈ r.reads) :
    n.description = m.description := by
  have hforget : ∀ k : Node, k.description
      = ((k.first? .description).map (Value.seen .description)).elim "" Value.textOrEmpty := by
    intro k
    unfold description
    cases k.first? .description with
    | none => rfl
    | some v => exact (Value.steady_textOrEmpty .description v).symm
  rw [hforget n, hforget m, first?_seen h hread]

theorem splitTable_seen (hread : (.examplesTable, .first) ∈ r.reads) :
    Examples.splitTable (n.first? .examplesTable)
      = Examples.splitTable (m.first? .examplesTable) := by
  rw [← Examples.splitTable_seen .examplesTable (n.first? .examplesTable), first?_seen h hread,
    Examples.splitTable_seen]

/-- The nodes inside look the same when they are read as rules of the category. -/
theorem node?_seen {c : RuleType} (hread : (c, .first) ∈ r.reads) :
    (n.node? c).map (seenAs c) = (m.node? c).map (seenAs c) := by
  have hforget : ∀ k : Node, (k.node? c).map (seenAs c)
      = ((k.first? c).map (Value.seen c)).bind Value.node? := by
    intro k
    unfold node?
    cases k.first? c with
    | none => rfl
    | some v => exact (Value.node?_seen c v).symm
  rw [hforget n, hforget m, first?_seen h hread]

theorem tags_seen (hread : (.tags, .first) ∈ r.reads) : n.tags = m.tags := by
  have hnode := node?_seen h hread
  unfold tags
  cases hn : n.node? .tags with
  | none =>
      rw [hn] at hnode
      rw [Option.map_eq_none_iff.1 hnode.symm]
  | some inner =>
      rw [hn] at hnode
      obtain ⟨inner', hm, hinner⟩ := Option.map_eq_some_iff.1 hnode.symm
      rw [hm]
      show (tagItems (inner.tokens .tagLine)).mapM _ = (tagItems (inner'.tokens .tagLine)).mapM _
      rw [tokens_seen hinner (by decide)]

/-- The inner nodes and their lines: none, or one line and two nodes that look the same. -/
theorem introduced?_seen {c : RuleType} {k : TokenType} (hread : (c, .first) ∈ r.reads)
    (hline : (.leaf k, .first) ∈ c.reads) :
    (n.introduced? c k = none ∧ m.introduced? c k = none)
      ∨ ∃ inner inner' line, n.introduced? c k = some (inner, line)
        ∧ m.introduced? c k = some (inner', line) ∧ inner.seenAs c = inner'.seenAs c := by
  have hnode := node?_seen h hread
  unfold introduced?
  cases hn : n.node? c with
  | none =>
      rw [hn] at hnode
      rw [Option.map_eq_none_iff.1 hnode.symm]
      exact .inl ⟨rfl, rfl⟩
  | some inner =>
      rw [hn] at hnode
      obtain ⟨inner', hm, hinner⟩ := Option.map_eq_some_iff.1 hnode.symm
      rw [hm]
      show ((inner.token? k).map _ = none ∧ (inner'.token? k).map _ = none) ∨ ∃ i i' line,
        (inner.token? k).map _ = some (i, line) ∧ (inner'.token? k).map _ = some (i', line) ∧ _
      rw [token?_seen hinner hline]
      cases inner.token? k with
      | none => exact .inl ⟨rfl, rfl⟩
      | some line => exact .inr ⟨inner, inner', line, rfl, rfl, hinner.symm⟩

end

end Node

/-! ## §4. What is made of them. -/

section

variable {n m : Node}

theorem Step.ofNode?_seen (h : n.seenAs .step = m.seenAs .step) :
    Step.ofNode? n = Step.ofNode? m := by
  unfold Step.ofNode?
  rw [Node.token?_seen h (by decide),
    Node.bind_first?_seen h (Value.reads_dataTable?.steady nofun) (by decide),
    Node.bind_first?_seen h (Value.reads_docString?.steady nofun) (by decide)]

theorem DocString.ofNode?_seen (h : n.seenAs .docString = m.seenAs .docString) :
    DocString.ofNode? n = DocString.ofNode? m := by
  unfold DocString.ofNode?
  rw [Node.token?_seen h (by decide), Node.tokens_seen h (by decide)]

theorem Background.ofNode?_seen (h : n.seenAs .background = m.seenAs .background) :
    Background.ofNode? n = Background.ofNode? m := by
  unfold Background.ofNode?
  rw [Node.token?_seen h (by decide), Node.description_seen h (by decide),
    Node.steps_seen h (by decide)]

theorem Scenario.ofNode_seen (h : n.seenAs .scenarioDefinition = m.seenAs .scenarioDefinition) :
    Scenario.ofNode n = Scenario.ofNode m := by
  unfold Scenario.ofNode
  rw [Node.tags_seen h (by decide)]
  rcases Node.introduced?_seen h (c := .scenario) (k := .scenarioLine) (by decide) (by decide) with
    ⟨hn, hm⟩ | ⟨inner, inner', line, hn, hm, hinner⟩
  · rw [hn, hm]
  · rw [hn, hm]
    simp only [Node.description_seen hinner (by decide), Node.steps_seen hinner (by decide),
      Node.examples_seen hinner (by decide)]

theorem Examples.ofNode_seen (h : n.seenAs .examplesDefinition = m.seenAs .examplesDefinition) :
    Examples.ofNode n = Examples.ofNode m := by
  unfold Examples.ofNode
  rw [Node.tags_seen h (by decide)]
  rcases Node.introduced?_seen h (c := .examples) (k := .examplesLine) (by decide) (by decide) with
    ⟨hn, hm⟩ | ⟨inner, inner', line, hn, hm, hinner⟩
  · rw [hn, hm]
  · rw [hn, hm]
    simp only [Node.description_seen hinner (by decide), Node.splitTable_seen hinner (by decide)]

theorem Rule.ofNode?_seen (h : n.seenAs .rule = m.seenAs .rule) :
    Rule.ofNode? n = Rule.ofNode? m := by
  unfold Rule.ofNode?
  rw [Node.background?_seen h (by decide), Node.scenarios_seen h (by decide)]
  rcases Node.introduced?_seen h (c := .ruleHeader) (k := .ruleLine) (by decide) (by decide) with
    ⟨hn, hm⟩ | ⟨header, header', line, hn, hm, hheader⟩
  · rw [hn, hm]
  · rw [hn, hm]
    simp only [Option.map_some, Node.description_seen hheader (by decide)]

theorem Feature.ofNode_seen (h : n.seenAs .feature = m.seenAs .feature) :
    Feature.ofNode n = Feature.ofNode m := by
  unfold Feature.ofNode
  rw [Node.background?_seen h (by decide), Node.scenarios_seen h (by decide),
    Node.rules_seen h (by decide)]
  rcases Node.introduced?_seen h (c := .featureHeader) (k := .featureLine) (by decide) (by decide)
    with ⟨hn, hm⟩ | ⟨header, header', line, hn, hm, hheader⟩
  · rw [hn, hm]
  · rw [hn, hm]
    simp only [Node.description_seen hheader (by decide), Node.tags_seen hheader (by decide)]

end

namespace Node

variable {n m : Node}

/-- A rule that is assembled, and is no document, stands for the same. -/
theorem assemble_seen (h : n.seenAs n.type = m.seenAs n.type) (hgen : n.type ∈ RuleType.assembled)
    (hne : n.type ≠ .gherkinDocument) (source source' : Source) :
    n.assemble source = m.assemble source' := by
  have htype : m.type = n.type := (seenAs_eq_iff.1 h).1.symm
  unfold assemble
  rw [htype]
  cases hr : n.type <;> rw [hr] at h
  case gherkinDocument => exact absurd hr hne
  case step => simp only [Step.ofNode?_seen h]
  case docString => simp only [DocString.ofNode?_seen h]
  case background => simp only [Background.ofNode?_seen h]
  case scenarioDefinition => simp only [Scenario.ofNode_seen h]
  case examplesDefinition => simp only [Examples.ofNode_seen h]
  case rule => simp only [Rule.ofNode?_seen h]
  case feature => simp only [Feature.ofNode_seen h]
  case dataTable => simp only [DataTable.ofNode, tokens_seen h (k := .tableRow) (by decide)]
  case examplesTable => simp only [tokens_seen h (k := .tableRow) (by decide)]
  case description => simp only [tokens_seen h (k := .other) (by decide)]
  all_goals
    rw [hr] at hgen
    exact absurd hgen (by simp [RuleType.assembled])

/-- **Closing two nodes that look the same** leaves values behind that look the same, and reports
or refuses the same. -/
theorem map_seen_assemble (h : n.seenAs n.type = m.seenAs n.type) (uri : String)
    (comments comments' : List Comment) :
    (n.assemble (.of uri comments)).map (Value.seen n.type)
      = (m.assemble (.of uri comments')).map (Value.seen n.type) := by
  have htype : m.type = n.type := (seenAs_eq_iff.1 h).1.symm
  by_cases hgen : n.type ∈ RuleType.assembled
  · by_cases hdocument : n.type = .gherkinDocument
    -- a document hands its comments on, which are not looked at
    · rw [assemble_gherkinDocument hdocument, assemble_gherkinDocument (htype.trans hdocument)]
      rw [hdocument] at h
      rw [bind_first?_seen h (Value.reads_feature?.steady nofun) (by decide)]
      rfl
    · rw [assemble_seen h hgen hdocument]
  · rw [assemble_generic hgen, assemble_generic (htype ▸ hgen)]
    show Except.ok (Value.seen n.type (.ofNode n)) = Except.ok (Value.seen n.type (.ofNode m))
    rw [Value.seen_ofNode, Value.seen_ofNode, h]

/-- Values that look the same keep two nodes looking the same. -/
theorem add_seen {r c : RuleType} {v w : Value} (h : n.seenAs r = m.seenAs r)
    (hv : v.seen c = w.seen c) : (n.add c v).seenAs r = (m.add c w).seenAs r := by
  obtain ⟨htype, hparts⟩ := seenAs_eq_iff.1 h
  refine seenAs_eq_iff.2 ⟨htype, ?_⟩
  intro k e hread
  have hmore : (if c = k then [v] else []).map (Value.seen k)
      = (if c = k then [w] else []).map (Value.seen k) := by
    by_cases hk : c = k
    · subst hk
      rw [if_pos rfl, if_pos rfl, List.map_singleton, List.map_singleton, hv]
    · rw [if_neg hk, if_neg hk]
  rw [items_add, items_add, List.map_append, List.map_append, hmore]
  exact e.part_append (hparts k e hread)

end Node

/-- Looking at what is read. -/
def View.read : View where
  node n := n.seenAs n.type
  value := Value.seen
  type_eq := Node.type_eq_of_seenAs
  add_eq {n m c v w} h hv := by
    have htype : n.type = m.type := Node.type_eq_of_seenAs h
    show (n.add c v).seenAs n.type = (m.add c w).seenAs m.type
    rw [← htype] at h ⊢
    exact Node.add_seen h hv
  assemble_eq {n m} h uri comments comments' := by
    have htype : n.type = m.type := Node.type_eq_of_seenAs h
    rw [← htype] at h
    exact Node.map_seen_assemble h uri comments comments'

end Gherkin
