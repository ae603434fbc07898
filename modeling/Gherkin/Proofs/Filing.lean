/-
  Gherkin.Proofs.Filing
  ─────────────────────
  **WHAT STANDS UNDER A CATEGORY.**

  Nodes hold values of any kind, and nothing but the builder sees to it that a
  category holds what it stands for.  It does so in all states that calls can
  lead to, closings that report a fault included, as long as no call finds the
  stack too short:

    • `RuleType.Admits`    — which values a category stands for,
    • `Node.Within`        — the nodes filed inside a node, at any depth,
    • `Builder.Reachable`  — the states that calls lead to,
    • `Builder.Orderly.handle` — one call keeps the root at the bottom and the
      promise of every category,
    • `filed_values_are_admitted` — so every value in every node is one that
      its category admits.
-/
import Gherkin.Proofs.Promise
import Gherkin.Proofs.RuleEffect

namespace Gherkin

/-! ## §1. What a category stands for. -/

/-- The values that may stand under a category: under a leaf category, tokens of its type, which is
not that of comments, and nodes; under a production that is assembled, what it becomes or nothing;
under any other category, nodes of that rule type. -/
def RuleType.Admits : RuleType → Value → Prop
  | .leaf k, v =>
    (∃ t : Token, v = .token t ∧ t.type = k ∧ k ≠ .comment)
      ∨ ∃ n : Node, v = .ofNode n ∧ n.type = .leaf k
  | .step, v => ∃ s : Option Step, v = .ofElement? .step s
  | .docString, v => ∃ d : Option DocString, v = .ofElement? .docString d
  | .dataTable, v => ∃ t : Option DataTable, v = .ofElement? .dataTable t
  | .background, v => ∃ b : Option Background, v = .ofElement? .background b
  | .scenarioDefinition, v => ∃ s : Option Scenario, v = .ofElement? .scenario s
  | .examplesDefinition, v => ∃ e : Option Examples, v = .ofElement? .examples e
  | .feature, v => ∃ f : Option Feature, v = .ofElement? .feature f
  | .rule, v => ∃ r : Option Rule, v = .ofElement? .rule r
  | .examplesTable, v => ∃ rows : List TableRow, v = .ofRows rows
  | .description, v => ∃ text : String, v = .text text
  | .gherkinDocument, v => ∃ d : Document, v = .element (.document d)
  | r, v => ∃ n : Node, v = .ofNode n ∧ n.type = r

/-- Nothing stands only where an element may be missing. -/
theorem RuleType.admits_null {r : RuleType}
    (h : r.elementClass?.isSome = true ∧ r ≠ .gherkinDocument) : r.Admits .null := by
  cases r
  case gherkinDocument => exact absurd rfl h.2
  case step | docString | dataTable | background | scenarioDefinition | examplesDefinition
      | feature | rule => exact ⟨none, rfl⟩
  all_goals cases h.1

/-- An element stands under the production that becomes one of its class. -/
theorem RuleType.admits_element {r : RuleType} {e : Element}
    (h : r.elementClass? = some e.cls) : r.Admits (.element e) := by
  cases r
  case gherkinDocument =>
    cases e <;> cases h
    exact ⟨_, rfl⟩
  case step | docString | dataTable | background | scenarioDefinition | examplesDefinition
      | feature | rule =>
    cases e <;> cases h
    exact ⟨some _, rfl⟩
  all_goals cases h

/-- A node stands under its own rule type, unless that is assembled. -/
theorem RuleType.admits_node {n : Node} (h : n.type ∉ assembled) : n.type.Admits (.ofNode n) := by
  cases htype : n.type
  case leaf k => exact .inr ⟨n, rfl, htype⟩
  case root | featureHeader | ruleHeader | scenario | examples | stepArg | tags
      | descriptionHelper => exact ⟨n, rfl, htype⟩
  all_goals
    rw [htype] at h
    exact absurd (by decide) h

/-- **A value that keeps the promise of its category** is one that the category admits. -/
theorem Value.Promised.admits {P : Token → Prop} {r : RuleType} {v : Value}
    (h : v.Promised P r) : r.Admits v := by
  cases v with
  | token t =>
      obtain ⟨rfl, hne, -⟩ := h
      exact .inl ⟨t, rfl, rfl, hne⟩
  | node type children =>
      obtain ⟨⟨rfl, hassembled⟩, -⟩ := h
      exact RuleType.admits_node (n := ⟨type, children⟩) hassembled
  | null => exact RuleType.admits_null h
  | text s =>
      obtain rfl : r = .description := h
      exact ⟨s, rfl⟩
  | list items =>
      obtain ⟨rfl, hrows⟩ := h
      exact hrows
  | element e => exact RuleType.admits_element h
  | bool b | int i | decimal d => exact h.elim

/-! ## §2. Nodes inside nodes. -/

/-- The nodes filed inside a node at any depth, the node itself included. -/
inductive Node.Within : Node → Node → Prop
  | self (n : Node) : Within n n
  | inside {m n inner : Node} {group : RuleType × List Value} : group ∈ n.children →
      .ofNode inner ∈ group.2 → Within m inner → Within m n

/-- The promise is kept all the way down. -/
theorem Node.Promised.within {P : Token → Prop} {m n : Node} (h : n.Promised P)
    (hm : m.Within n) : m.Promised P := by
  induction hm with
  | self => exact h
  | inside hgroup hinner _ ih =>
      have hvalue := Value.groupsPromised_iff.1 h _ hgroup _ hinner
      exact ih hvalue.2

/-! ## §3. The states that calls lead to. -/

namespace Builder

/-- The states that calls lead to from a reset, whatever the calls report, as long as none of them
finds the stack too short. -/
inductive Reachable : Builder → Prop
  | reset (b : Builder) : Reachable b.reset
  | call {b : Builder} (e : Event) : Reachable b →
      (∀ cause, (b.handle e).1 ≠ .error (.underflow cause)) → Reachable (b.handle e).2

/-- What holds between two calls: the root is at the bottom, and all categories keep their
promise. -/
structure Orderly (b : Builder) : Prop where
  rooted : (b.stack.map Node.type).getLast? = some .root
  promised : ∀ n ∈ b.stack, n.Promised fun _ => True

theorem orderly_reset (b : Builder) : b.reset.Orderly where
  rooted := rfl
  promised := by
    intro n hn
    rw [List.mem_singleton.1 hn]
    exact Node.promised_empty .root

/-- Closing the root finds no node to file it on. -/
theorem handle_closing_root {b : Builder} {n : Node} (h : b.stack = [n]) (hn : n.type = .root)
    (named : RuleType) (spare : Option Token) :
    (b.handle (.closing named spare)).1 = .error (.underflow .noCurrentNode) := by
  have hgeneric : n.assemble b.source = .ok (.ofNode n) :=
    Node.assemble_generic (by rw [hn]; decide) b.source
  unfold handle closeRule
  simp only [h, hgeneric]
  rfl

/-- **One call keeps the builder in order**, unless it finds the stack too short. -/
theorem Orderly.handle {b : Builder} (h : b.Orderly) {e : Event}
    (hcall : ∀ cause, (b.handle e).1 ≠ .error (.underflow cause)) : (b.handle e).2.Orderly := by
  obtain ⟨hrooted, hpromised⟩ := h
  match hstack : b.stack with
  | [] =>
      rw [hstack] at hrooted
      cases hrooted
  | n :: outer =>
      rw [hstack] at hrooted hpromised
      obtain ⟨hn, houter⟩ := List.forall_mem_cons.1 hpromised
      cases e with
      | leaf t spare =>
          rw [handle_leaf hstack]
          refine ⟨?_, List.forall_mem_cons.2 ⟨hn.addAll (Token.arrival_promised trivial), houter⟩⟩
          show ((n.addAll t.arrival).type :: outer.map Node.type).getLast? = _
          rw [Node.type_addAll]
          exact hrooted
      | opening type spare =>
          refine ⟨?_, List.forall_mem_cons.2 ⟨Node.promised_empty type, ?_⟩⟩
          · show (type :: b.stack.map Node.type).getLast? = _
            rw [hstack]
            exact hrooted
          · rw [hstack]
            exact hpromised
      | closing named spare =>
          cases outer with
          | nil =>
              have hroot : n.type = .root := Option.some.inj hrooted
              exact absurd (handle_closing_root hstack hroot named spare) (hcall _)
          | cons m inner =>
              -- what the closed node leaves behind, if anything, is of the kind it stands for
              obtain ⟨hm, hinner⟩ := List.forall_mem_cons.1 houter
              rw [handle_closing hstack]
              refine ⟨?_, List.forall_mem_cons.2 ⟨hm.addAll (hn.arrival _), hinner⟩⟩
              show ((m.addAll _).type :: inner.map Node.type).getLast? = _
              rw [Node.type_addAll]
              exact hrooted

theorem Reachable.orderly {b : Builder} (h : b.Reachable) : b.Orderly := by
  induction h with
  | reset b => exact b.orderly_reset
  | call e _ hcall ih => exact ih.handle hcall

end Builder

/-- **Every value stands under a category that admits it**, in every node on the stack and in every
node inside one of these, wherever calls have led the builder. -/
theorem filed_values_are_admitted {b : Builder} (h : b.Reachable) :
    ∀ n ∈ b.stack, ∀ m : Node, m.Within n →
      ∀ group ∈ m.children, ∀ v ∈ group.2, group.1.Admits v := by
  intro n hn m hm group hgroup v hv
  have hpromised := (h.orderly.promised n hn).within hm
  exact (Value.groupsPromised_iff.1 hpromised group hgroup v hv).admits

/-- Tags below a leaf category and a ragged table, both closed directly in the root. -/
def strayCalls : List Event :=
  [ .opening (.leaf .other) none,
    .opening .tags none,
    .leaf { type := .tagLine, location := ⟨1, 1⟩, items := [⟨-1, "@a"⟩] } none,
    .closing .tags none,
    .closing .feature none,
    .opening .dataTable none,
    .leaf { type := .tableRow, location := ⟨2, 1⟩, items := [⟨3, "a"⟩, ⟨7, "b"⟩] } none,
    .leaf { type := .tableRow, location := ⟨3, 1⟩, items := [⟨3, "c"⟩] } none,
    .closing .dataTable none ]

/-- The tags closed in the node of the leaf category. -/
def strayTags : Node :=
  ⟨.tags, [(.leaf .tagLine,
    [.token { type := .tagLine, location := ⟨1, 1⟩, items := [⟨-1, "@a"⟩] }])]⟩

/-- The node of the leaf category. -/
def strayLeaf : Node := ⟨.leaf .other, [(.tags, [.ofNode strayTags])]⟩

/-- The two rows, as they are kept. -/
def strayTable : DataTable :=
  ⟨⟨2, 1⟩, [⟨⟨2, 1⟩, [⟨⟨2, 3⟩, "a"⟩, ⟨⟨2, 7⟩, "b"⟩]⟩, ⟨⟨3, 1⟩, [⟨⟨3, 3⟩, "c"⟩]⟩]⟩

/-- The root in the end. -/
def strayRoot : Node :=
  ⟨.root, [(.leaf .other, [.ofNode strayLeaf]), (.dataTable, [.element (.dataTable strayTable)])]⟩

theorem filed_values_strayCalls :
    ((Builder.new "").carryOn strayCalls).Reachable
      ∧ ((Builder.new "").carryOn strayCalls).stack = [strayRoot]
      ∧ RuleType.dataTable.Admits (.element (.dataTable strayTable))
      ∧ strayTags.Within strayRoot
      ∧ ∀ group ∈ strayTags.children, ∀ v ∈ group.2, group.1.Admits v := by
  have hreachable : ((Builder.new "").carryOn strayCalls).Reachable := by
    have hstart : (Builder.new "").Reachable := .reset ⟨"", "", [], []⟩
    iterate 9 refine .call _ ?_ nofun
    exact hstart
  have hstack : ((Builder.new "").carryOn strayCalls).stack = [strayRoot] := rfl
  have hadmitted := filed_values_are_admitted hreachable strayRoot (hstack ▸ List.mem_cons_self)
  have hleaf : strayTags.Within strayLeaf :=
    @Node.Within.inside _ _ strayTags (.tags, [.ofNode strayTags]) (.head _) (.head _) (.self _)
  have hroot : strayTags.Within strayRoot :=
    @Node.Within.inside _ _ strayLeaf (.leaf .other, [.ofNode strayLeaf]) (.head _) (.head _) hleaf
  refine ⟨hreachable, hstack, ?_, hroot, hadmitted strayTags hroot⟩
  exact hadmitted strayRoot (.self _) (.dataTable, [.element (.dataTable strayTable)])
    (.tail _ (.head _)) _ (.head _)

end Gherkin
