/-
  Gherkin.Proofs.Grammar
  ──────────────────────
  **THE SHAPE OF A FEATURE FILE.**

  `RuleType.alternatives` is the grammar: for each rule the parts it consists
  of, in order, with how often each may occur.  Comments, empty lines, language
  lines and the end of the file may stand anywhere; `Forest.essential` leaves
  them out.  `Grammatical` says that a tree follows the grammar at every rule.

  The other half of the module splits the children of a rule by part:

    • `Matches.mem`         — no child belongs to another category,
    • `Grammatical.eq_leaf` — a leaf category holds tokens only,
    • `arrived_leaf`        — so what arrives there are the direct tokens.
-/
import Gherkin.Proofs.Evaluation

namespace Gherkin

/-! ## §1. The grammar. -/

/-- How often a part may occur. -/
inductive Count where
  | one
  | optional
  | many
  | some
  deriving DecidableEq

/-- Whether a part may occur a number of times. -/
def Count.Allows : Count → Nat → Prop
  | .one, n => n = 1
  | .optional, n => n ≤ 1
  | .many, _ => True
  | .some, n => 1 ≤ n

/-- A part of a rule: its category, and how often it may occur. -/
abbrev Part : Type := RuleType × Count

/-- The grammar: the parts of a rule in order, for each alternative of the rule. -/
def RuleType.alternatives : RuleType → List (List Part)
  | .gherkinDocument => [[(.feature, .optional)]]
  | .feature =>
    [[(.featureHeader, .one), (.background, .optional), (.scenarioDefinition, .many),
      (.rule, .many)]]
  | .featureHeader => [[(.tags, .optional), (.leaf .featureLine, .one), (.description, .optional)]]
  | .rule => [[(.ruleHeader, .one), (.background, .optional), (.scenarioDefinition, .many)]]
  | .ruleHeader => [[(.tags, .optional), (.leaf .ruleLine, .one), (.description, .optional)]]
  | .background => [[(.leaf .backgroundLine, .one), (.description, .optional), (.step, .many)]]
  | .scenarioDefinition => [[(.tags, .optional), (.scenario, .one)]]
  | .scenario =>
    [[(.leaf .scenarioLine, .one), (.description, .optional), (.step, .many),
      (.examplesDefinition, .many)]]
  | .examplesDefinition => [[(.tags, .optional), (.examples, .one)]]
  | .examples =>
    [[(.leaf .examplesLine, .one), (.description, .optional), (.examplesTable, .optional)]]
  | .step =>
    [[(.leaf .stepLine, .one), (.dataTable, .optional)],
      [(.leaf .stepLine, .one), (.docString, .optional)]]
  | .dataTable | .examplesTable => [[(.leaf .tableRow, .some)]]
  | .docString =>
    [[(.leaf .docStringSeparator, .one), (.leaf .other, .many), (.leaf .docStringSeparator, .one)]]
  | .tags => [[(.leaf .tagLine, .some)]]
  | .description => [[(.leaf .other, .some)]]
  | _ => []

/-- Whether a list of categories consists of the given parts. -/
def Matches : List Part → List RuleType → Prop
  | [], categories => categories = []
  | (c, count) :: parts, categories =>
    ∃ n rest, count.Allows n ∧ categories = List.replicate n c ++ rest ∧ Matches parts rest

/-! ## §2. Trees that follow the grammar. -/

/-- Whether tokens of a type may stand anywhere. -/
def TokenType.isNoise : TokenType → Bool
  | .comment | .empty | .language | .eof => true
  | _ => false

/-- Whether a tree is a token that may stand anywhere. -/
def Tree.isNoise : Tree → Bool
  | .leaf t => t.type.isNoise
  | .rule _ _ => false

/-- The trees of a forest without those that may stand anywhere. -/
def Forest.essential (f : Forest) : Forest := f.filter fun t => !t.isNoise

/-- Trees that follow the grammar at every rule. -/
inductive Grammatical : Tree → Prop
  | leaf (t : Token) : Grammatical (.leaf t)
  | rule {type : RuleType} {children : Forest} {parts : List Part} :
      parts ∈ type.alternatives → Matches parts (children.essential.map Tree.category) →
      (∀ t ∈ children, Grammatical t) → Grammatical (.rule type children)

theorem Grammatical.children {type : RuleType} {children : Forest}
    (h : Grammatical (.rule type children)) : ∀ t ∈ children, Grammatical t := by
  cases h with
  | rule _ _ hchildren => exact hchildren

theorem Grammatical.of_isNoise {t : Tree} (h : t.isNoise) : Grammatical t := by
  cases t with
  | leaf u => exact .leaf u
  | rule type children => cases h

theorem Forest.essential_append (f g : Forest) :
    essential (f ++ g) = essential f ++ essential g :=
  List.filter_append f g

theorem Forest.essential_eq_nil {f : Forest} (h : ∀ t ∈ f, t.isNoise) : f.essential = [] := by
  unfold essential
  rw [List.filter_eq_nil_iff]
  intro t ht
  rw [h t ht]
  decide

theorem Matches.mem {parts : List Part} {categories : List RuleType}
    (h : Matches parts categories) : ∀ c ∈ categories, c ∈ parts.map Prod.fst := by
  induction parts generalizing categories with
  | nil =>
      intro c hc
      rw [show categories = [] from h] at hc
      cases hc
  | cons part parts ih =>
      obtain ⟨n, rest, -, rfl, hrest⟩ := h
      intro c hc
      rcases List.mem_append.1 hc with hc | hc
      · rw [List.eq_of_mem_replicate hc]
        exact List.mem_cons_self
      · exact List.mem_cons_of_mem _ (ih hrest c hc)

/-- In a grammatical tree a leaf category holds a token. -/
theorem Grammatical.eq_leaf {t : Tree} {k : TokenType} (h : Grammatical t)
    (hk : t.category = .leaf k) : ∃ u : Token, t = .leaf u ∧ u.type = k := by
  cases h with
  | leaf u => exact ⟨u, rfl, RuleType.leaf.inj hk⟩
  | @rule type _ _ hparts _ _ =>
      have htype : type = .leaf k := hk
      subst htype
      cases hparts

/-! ## §3. Deciding it. -/

instance (count : Count) (n : Nat) : Decidable (count.Allows n) := by
  cases count <;> unfold Count.Allows <;> infer_instance

theorem matches_cons_iff {part : Part} {parts : List Part} {categories : List RuleType} :
    Matches (part :: parts) categories ↔
      ∃ n, n ≤ categories.length ∧ part.2.Allows n ∧ categories.take n = List.replicate n part.1
        ∧ Matches parts (categories.drop n) := by
  constructor
  -- the search is finite: a part takes no more categories than there are
  · rintro ⟨n, rest, hn, rfl, hrest⟩
    refine ⟨n, by simp, hn, by simp, ?_⟩
    rw [List.drop_append_of_le_length (by simp), List.drop_replicate, Nat.sub_self]
    exact hrest
  · rintro ⟨n, -, hn, htake, hrest⟩
    exact ⟨n, categories.drop n, hn, htake ▸ (List.take_append_drop n categories).symm, hrest⟩

instance decidableMatches : ∀ (parts : List Part) (categories : List RuleType),
    Decidable (Matches parts categories)
  | [], categories => inferInstanceAs (Decidable (categories = []))
  | _ :: parts, categories =>
      have (n : Nat) := decidableMatches parts (categories.drop n)
      decidable_of_iff' _ matches_cons_iff

mutual

/-- Whether a tree follows the grammar, as a test. -/
def Tree.follows : Tree → Bool
  | .leaf _ => true
  | .rule type children =>
    (type.alternatives.any fun parts =>
      Matches parts ((Forest.essential children).map Tree.category)) && Forest.follows children

/-- Whether all trees of a forest follow the grammar, as a test. -/
def Forest.follows : Forest → Bool
  | [] => true
  | t :: rest => t.follows && Forest.follows rest

end

theorem Forest.grammatical_of_follows {f : Forest} (h : f.follows) : ∀ t ∈ f, Grammatical t := by
  induction f using Forest.induction with
  | nil => intro t ht; cases ht
  | leaf t rest ih =>
      intro u hu
      rcases List.mem_cons.1 hu with rfl | hu
      · exact .leaf t
      · exact ih h u hu
  | rule type children rest ihc ihr =>
      intro u hu
      obtain ⟨hrule, hrest⟩ := Bool.and_eq_true_iff.1 h
      rcases List.mem_cons.1 hu with rfl | hu
      · obtain ⟨hparts, hchildren⟩ := Bool.and_eq_true_iff.1 hrule
        obtain ⟨parts, hmem, hmatches⟩ := List.any_eq_true.1 hparts
        exact .rule hmem (of_decide_eq_true hmatches) (ihc hchildren)
      · exact ihr hrest u hu

/-! ## §4. The tokens below a grammatical rule. -/

namespace Forest

/-- **What arrives in a leaf category** are the tokens that stand directly in the forest. -/
theorem arrived_leaf (uri : String) {k : TokenType} (hk : k ≠ .comment) {f : Forest}
    (hf : ∀ t ∈ f, Grammatical t) :
    ∀ before, Grouped.arrived (.leaf k) (f.arrivals uri before) = (f.direct k).map .token := by
  induction f using Forest.induction with
  | nil => intro before; rfl
  | leaf t rest ih =>
      intro before
      rw [arrivals_leaf, Grouped.arrived_append, direct_leaf, List.map_append,
        ih (fun u hu => hf u (List.mem_cons_of_mem _ hu))]
      congr 1
      unfold Token.arrival
      by_cases hcomment : t.type = .comment
      · rw [if_pos hcomment, if_neg (hcomment ▸ hk.symm)]
        rfl
      · rw [if_neg hcomment, Grouped.arrived_singleton]
        by_cases h : t.type = k <;> simp [h, Token.category]
  | rule type children rest _ ih =>
      intro before
      -- a rule could be filed under a leaf category, but not by the grammar
      have hne : type ≠ .leaf k := by
        intro htype
        obtain ⟨u, hu, -⟩ := (hf _ List.mem_cons_self).eq_leaf htype
        cases hu
      rw [arrivals_rule, Grouped.arrived_append, direct_rule,
        ih (fun u hu => hf u (List.mem_cons_of_mem _ hu))]
      rw [Node.arrived_arrival_of_ne hne, List.nil_append]

/-- The first token of a type below a grammatical rule. -/
theorem token?_node (uri : String) (before : List Comment) (type : RuleType) {k : TokenType}
    (hk : k ≠ .comment) {children : Forest} (h : ∀ t ∈ children, Grammatical t) :
    (Node.ofArrivals type (arrivals uri before children)).token? k = (children.direct k).head? := by
  unfold Node.token? Node.first?
  rw [Node.items_ofArrivals, arrived_leaf uri hk h]
  cases children.direct k <;> rfl

/-- A leaf category that occurs among the children holds a direct token. -/
theorem direct_ne_nil {k : TokenType} {f : Forest} (hf : ∀ t ∈ f, Grammatical t)
    (h : .leaf k ∈ f.essential.map Tree.category) : f.direct k ≠ [] := by
  obtain ⟨t, ht, hk⟩ := List.mem_map.1 h
  have hmem : t ∈ f := (List.mem_filter.1 ht).1
  obtain ⟨u, rfl, hu⟩ := (hf t hmem).eq_leaf hk
  have hdirect : u ∈ f.direct k := List.mem_filterMap.2 ⟨.leaf u, hmem, if_pos hu⟩
  exact List.ne_nil_of_mem hdirect

end Forest

end Gherkin
