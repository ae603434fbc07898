/-
  Gherkin.Proofs.Promise
  ──────────────────────
  **WHAT A CATEGORY PROMISES.**

  Nodes hold values of any kind, but a builder files only values of the kind
  that the category stands for: tokens and nodes under leaf categories, the
  matching element or nothing under the assembled productions, nodes under
  all others.  `Value.Promised` says so, all the way down, and says of every
  token in a value that it satisfies a predicate `P`.

    • `Node.Promised.filed` — closing a node that keeps the promise files a
      value that keeps it,
    • `Node.Promised.not_rejected` — and nothing is ever refused when the
      columns of all tokens fit.
-/
import Gherkin.Proofs.Assembling
import Gherkin.Proofs.Columns

namespace Gherkin

/-! ## §1. The promise. -/

mutual

/-- Whether a value is of the kind that its category promises, its tokens all satisfying `P`. -/
def Value.Promised (P : Token → Prop) (r : RuleType) : Value → Prop
  | .token t => r = t.category ∧ t.type ≠ .comment ∧ P t
  | .node type children =>
    (type = r ∧ r ∉ RuleType.assembled) ∧ Value.GroupsPromised P children
  | v => v.Result r

/-- Whether all values of a grouping are of the kind that their categories promise. -/
def Value.GroupsPromised (P : Token → Prop) : List (RuleType × List Value) → Prop
  | [] => True
  | (r, values) :: rest => Value.AllPromised P r values ∧ Value.GroupsPromised P rest

/-- Whether all values of a list are of the kind that one category promises. -/
def Value.AllPromised (P : Token → Prop) (r : RuleType) : List Value → Prop
  | [] => True
  | v :: rest => v.Promised P r ∧ Value.AllPromised P r rest

end

/-- Whether all children of a node are of the kind that their categories promise. -/
def Node.Promised (P : Token → Prop) (n : Node) : Prop := Value.GroupsPromised P n.children

variable {P : Token → Prop}

theorem Value.allPromised_iff {r : RuleType} {values : List Value} :
    Value.AllPromised P r values ↔ ∀ v ∈ values, v.Promised P r := by
  induction values with
  | nil => simp [Value.AllPromised]
  | cons v rest ih => simp [Value.AllPromised, ih]

theorem Value.groupsPromised_iff {groups : List (RuleType × List Value)} :
    Value.GroupsPromised P groups ↔ ∀ group ∈ groups, ∀ v ∈ group.2, v.Promised P group.1 := by
  induction groups with
  | nil => simp [Value.GroupsPromised]
  | cons group rest ih =>
      obtain ⟨r, values⟩ := group
      simp only [Value.GroupsPromised, Value.allPromised_iff, ih, List.forall_mem_cons]

/-- What is filed for a rule keeps the promise, provided that a node does. -/
theorem Value.Result.promised {r : RuleType} {v : Value} (h : v.Result r)
    (hnode : ∀ type children, v = .node type children → Value.GroupsPromised P children) :
    v.Promised P r := by
  cases v with
  | token t => exact h.elim
  | node type children => exact ⟨h, hnode type children rfl⟩
  | _ => exact h

/-- A value that is no token is of the kind that closing its rule leaves behind. -/
theorem Value.Promised.result {r : RuleType} {v : Value} (h : v.Promised P r)
    (hv : v.token? = none) : v.Result r := by
  cases v with
  | token t => cases hv
  | node type children => exact h.1
  | _ => exact h

/-! ## §2. Filing keeps it. -/

theorem Value.GroupsPromised.items {groups : List (RuleType × List Value)} {c : RuleType}
    (h : Value.GroupsPromised P groups) : ∀ v ∈ Grouped.items c groups, v.Promised P c := by
  induction groups with
  | nil => intro v hv; cases hv
  | cons g rest ih =>
      obtain ⟨r, values⟩ := g
      intro v hv
      unfold Grouped.items at hv
      split at hv
      next hr =>
        subst hr
        exact Value.allPromised_iff.1 h.1 v hv
      next => exact ih h.2 v hv

theorem Value.GroupsPromised.add {groups : List (RuleType × List Value)} {c : RuleType}
    {v : Value} (h : Value.GroupsPromised P groups) (hv : v.Promised P c) :
    Value.GroupsPromised P (Grouped.add c v groups) := by
  induction groups with
  | nil => exact ⟨⟨hv, trivial⟩, trivial⟩
  | cons g rest ih =>
      obtain ⟨r, values⟩ := g
      unfold Grouped.add
      split
      -- the group of the category gets one more value, all others stay
      next hr =>
        subst hr
        refine ⟨Value.allPromised_iff.2 ?_, h.2⟩
        intro w hw
        rcases List.mem_append.1 hw with hw | hw
        · exact Value.allPromised_iff.1 h.1 w hw
        · rw [List.mem_singleton.1 hw]
          exact hv
      next => exact ⟨h.1, ih h.2⟩

namespace Node

theorem promised_empty (type : RuleType) : (empty type).Promised P := trivial

theorem Promised.add {n : Node} {c : RuleType} {v : Value} (h : n.Promised P)
    (hv : v.Promised P c) : (n.add c v).Promised P :=
  Value.GroupsPromised.add h hv

theorem Promised.addAll {n : Node} {arrivals : List (RuleType × Value)} (h : n.Promised P)
    (ha : ∀ a ∈ arrivals, a.2.Promised P a.1) : (n.addAll arrivals).Promised P := by
  induction arrivals generalizing n with
  | nil => exact h
  | cons a rest ih =>
      exact ih (h.add (ha a List.mem_cons_self)) fun b hb => ha b (List.mem_cons_of_mem _ hb)

theorem promised_ofArrivals {type : RuleType} {arrivals : List (RuleType × Value)}
    (h : ∀ a ∈ arrivals, a.2.Promised P a.1) : (ofArrivals type arrivals).Promised P := by
  rw [← addAll_empty]
  exact (promised_empty type).addAll h

/-- **Closing a node that keeps the promise** files a value that keeps it. -/
theorem Promised.filed {n : Node} {source : Source} {v : Value} (h : n.Promised P)
    (hv : n.filed? source = some v) : v.Promised P n.type := by
  apply (filed?_result hv).promised
  intro type children hnode
  subst hnode
  rw [filed?_node hv]
  exact h

theorem Promised.arrival {n : Node} (h : n.Promised P) (source : Source) :
    ∀ a ∈ n.arrival source, a.2.Promised P a.1 := by
  intro a ha
  obtain ⟨v, hv, rfl⟩ := Option.map_eq_some_iff.1 (Option.mem_toList.1 ha)
  exact h.filed hv

end Node

theorem Token.arrival_promised {t : Token} (h : P t) :
    ∀ a ∈ t.arrival, a.2.Promised P a.1 := by
  intro a ha
  unfold Token.arrival at ha
  split at ha
  next => cases ha
  next hne =>
    rw [List.mem_singleton.1 ha]
    exact ⟨rfl, hne, h⟩

/-! ## §3. Reading a node that keeps it. -/

namespace Node

theorem Promised.tokens {n : Node} {k : TokenType} (h : n.Promised P) :
    ∀ t ∈ n.tokens k, t.type = k ∧ P t := by
  intro t ht
  obtain ⟨hcat, -, hP⟩ := Value.GroupsPromised.items h (.token t) (mem_tokens.1 ht)
  exact ⟨(RuleType.leaf.inj hcat).symm, hP⟩

theorem Promised.first {n : Node} {c : RuleType} {v : Value} (h : n.Promised P)
    (hv : n.first? c = some v) : v.Promised P c :=
  Value.GroupsPromised.items h v (List.mem_of_mem_head? hv)

theorem Promised.node {n m : Node} {c : RuleType} (h : n.Promised P)
    (hm : n.node? c = some m) : m.Promised P :=
  (h.first (node?_eq_some_iff.1 hm)).2

theorem Promised.introduced {n inner : Node} {line : Token} {c : RuleType} {k : TokenType}
    (h : n.Promised P) (hi : n.introduced? c k = some (inner, line)) : inner.Promised P :=
  h.node (introduced?_eq_some_iff.1 hi).1

/-- Under `ExamplesTable` stand lists of rows. -/
theorem Promised.examplesTable {n : Node} {v : Value} (h : n.Promised P)
    (hv : n.first? .examplesTable = some v) : ∃ rows, v = .ofRows rows := by
  have hp := h.first hv
  cases v with
  | list items => exact hp.2
  | token t => cases hp.1
  | node type children => exact absurd (by decide) hp.1.2
  | element e => cases hp
  | null => cases hp.1
  | text s => cases hp
  | bool b | int i | decimal d => exact hp.elim

/-! ## §4. Nothing is refused when all columns fit. -/

theorem Promised.tagLines {n : Node} (h : n.Promised Token.Fits) :
    ∀ t ∈ n.tagLines, ∀ i ∈ t.items, i.InRange := by
  intro t ht
  unfold Node.tagLines at ht
  cases hn : n.node? .tags with
  | none =>
      rw [hn] at ht
      cases ht
  | some tagsNode =>
      rw [hn] at ht
      obtain ⟨htype, hfits⟩ := (h.node hn).tokens t ht
      exact hfits (.inr htype)

theorem Promised.tags_eq {n : Node} (h : n.Promised Token.Fits) :
    n.tags = .ok (n.tagLines.flatMap Token.tags) :=
  Node.tags_eq h.tagLines

theorem Promised.rowTokens {n : Node} (h : n.Promised Token.Fits) :
    ∀ t ∈ n.tokens .tableRow, ∀ i ∈ t.items, i.InRange := by
  intro t ht
  obtain ⟨htype, hfits⟩ := h.tokens t ht
  exact hfits (.inl htype)

/-- The value of a table is made of all its rows, ragged or not. -/
theorem Promised.filed_table {n : Node} (h : n.Promised Token.Fits) {wrap : List TableRow → Value}
    (htable : n.type.tableValue? = some wrap) (source : Source) :
    n.filed? source = some (wrap ((n.tokens .tableRow).map Token.row)) := by
  unfold filed?
  rw [assemble_table htable, tableRows_eq h.rowTokens]
  cases raggedToken? (n.tokens .tableRow) <;> rfl

/-- The header and the body of the table in an examples section. -/
theorem Promised.splitTable {n : Node} (h : n.Promised P) :
    ∃ split, Examples.splitTable (n.first? .examplesTable) = .ok split := by
  cases hv : n.first? .examplesTable with
  | none => exact ⟨_, rfl⟩
  | some v =>
      obtain ⟨rows, rfl⟩ := h.examplesTable hv
      exact ⟨_, Examples.splitTable_ofRows rows⟩

theorem Promised.scenario {n : Node} (h : n.Promised Token.Fits) :
    ∃ o, Scenario.ofNode n = .ok o := by
  unfold Scenario.ofNode
  rw [h.tags_eq]
  cases n.introduced? .scenario .scenarioLine <;> exact ⟨_, rfl⟩

theorem Promised.feature {n : Node} (h : n.Promised Token.Fits) :
    ∃ o, Feature.ofNode n = .ok o := by
  unfold Feature.ofNode
  cases hi : n.introduced? .featureHeader .featureLine with
  | none => exact ⟨_, rfl⟩
  | some p =>
      obtain ⟨header, line⟩ := p
      show ∃ o, header.tags.map _ = .ok o
      rw [(h.introduced hi).tags_eq]
      exact ⟨_, rfl⟩

theorem Promised.examples {n : Node} (h : n.Promised Token.Fits) :
    ∃ o, Examples.ofNode n = .ok o := by
  unfold Examples.ofNode
  cases hi : n.introduced? .examples .examplesLine with
  | none => exact ⟨_, rfl⟩
  | some p =>
      obtain ⟨inner, line⟩ := p
      obtain ⟨split, hsplit⟩ := (h.introduced hi).splitTable
      simp only [h.tags_eq, hsplit]
      exact ⟨_, rfl⟩

/-- **Nothing is refused** when a node keeps the promise with tokens whose columns fit. -/
theorem Promised.not_rejected {n : Node} (h : n.Promised Token.Fits) (uri : String)
    (comments : List Comment) (r : Rejection) :
    n.assemble (.of uri comments) ≠ .error (.rejected r) := by
  cases htable : n.type.tableValue? with
  | some wrap =>
      rw [assemble_table htable, tableRows_eq h.rowTokens]
      cases raggedToken? (n.tokens .tableRow) <;> nofun
  | none =>
      unfold assemble
      split
      case h_3 htype | h_7 htype =>
        rw [htype] at htable
        cases htable
      -- three productions check columns; the document reads back the comments of its builder
      case h_5 =>
        obtain ⟨o, ho⟩ := h.scenario
        rw [ho]
        nofun
      case h_6 =>
        obtain ⟨o, ho⟩ := h.examples
        rw [ho]
        nofun
      case h_9 =>
        obtain ⟨o, ho⟩ := h.feature
        rw [ho]
        nofun
      case h_11 =>
        rw [Document.ofNode_of]
        nofun
      all_goals nofun

end Node

end Gherkin
