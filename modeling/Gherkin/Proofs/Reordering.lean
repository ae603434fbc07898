/-
  Gherkin.Proofs.Reordering
  ─────────────────────────
  **THE ORDER OF CHILDREN IN DIFFERENT CATEGORIES.**

  Children are read category by category, so it does not matter how those of
  one category stand among those of another:

    • `Forest.Reordered`          — two forests have the same trees in the same
      order within each category, at every depth,
    • `View.arrivals_before`      — what arrives looks the same, whatever
      comments came before,
    • `Forest.Matched.arrivals_eq`, `Forest.Reordered.read_eq` — so what
      arrives for two such forests looks the same in the node that takes it,
    • `siblings_commute`          — and neighbours of different categories may
      change places.

  The nodes differ in the order of their groups, and so do all nodes that were
  filed in them; what is read of them does not.
-/
import Gherkin.Proofs.Siblings

namespace Gherkin

/-! ## §1. Forests that differ in the order of categories only. -/

namespace Forest

/-- The trees that are filed under a category. -/
def under (c : RuleType) (f : Forest) : Forest := f.filter fun t => t.category = c

/-- Whether two forests match tree by tree: the same tokens, and rules of the same type whose
children match within each category. -/
inductive Matched : Forest → Forest → Prop
  | nil : Matched [] []
  | leaf (t : Token) {rest rest' : Forest} :
      Matched rest rest' → Matched (.leaf t :: rest) (.leaf t :: rest')
  | rule (type : RuleType) {children children' rest rest' : Forest} :
      (∀ c, Matched (under c children) (under c children')) → Matched rest rest' →
      Matched (.rule type children :: rest) (.rule type children' :: rest')

/-- Whether two forests match within each category. -/
def Reordered (f g : Forest) : Prop := ∀ c, Matched (f.under c) (g.under c)

theorem under_cons (c : RuleType) (t : Tree) (rest : Forest) :
    under c (t :: rest) = (if t.category = c then [t] else []) ++ under c rest := by
  unfold under
  by_cases h : t.category = c <;> simp [h]

/-- Forests that match tree by tree match within each category. -/
theorem Matched.reordered {f g : Forest} (h : Matched f g) : f.Reordered g := by
  intro c
  induction h with
  | nil => exact .nil
  | leaf t _ ih =>
      rw [under_cons, under_cons]
      by_cases hc : (Tree.leaf t).category = c
      · rw [if_pos hc]
        exact .leaf t ih
      · rw [if_neg hc]
        exact ih
  | @rule type children children' _ _ hchildren _ _ ih =>
      rw [under_cons, under_cons]
      -- a rule is filed under its type, whatever is below it
      show Matched ((if type = c then [Tree.rule type children] else []) ++ _)
        ((if type = c then [Tree.rule type children'] else []) ++ _)
      by_cases hc : type = c
      · rw [if_pos hc, if_pos hc]
        exact .rule type hchildren ih
      · rw [if_neg hc, if_neg hc]
        exact ih

theorem Matched.refl (f : Forest) : Matched f f := by
  induction f using Forest.induction with
  | nil => exact .nil
  | leaf t rest ih => exact .leaf t ih
  | rule type children rest ihc ihr => exact .rule type ihc.reordered ihr

/-- Two trees of different categories may change places. -/
theorem reordered_swap {t u : Tree} (h : t.category ≠ u.category) :
    Reordered ([t] ++ [u]) ([u] ++ [t]) := by
  intro c
  have hswap : under c ([t] ++ [u]) = under c ([u] ++ [t]) := by
    show under c [t, u] = under c [u, t]
    rw [under_cons, under_cons, under_cons c u, under_cons c t]
    by_cases ht : t.category = c
    · -- then the other tree is in another category
      have hu : u.category ≠ c := fun hu => h (ht.trans hu.symm)
      rw [if_pos ht, if_neg hu]
      rfl
    · rw [if_neg ht]
      rfl
  rw [hswap]
  exact .refl _

end Forest

/-! ## §2. What arrives looks the same. -/

namespace View

variable (V : View)

theorem arrivals_append (as bs : List (RuleType × Value)) :
    V.arrivals (as ++ bs) = V.arrivals as ++ V.arrivals bs :=
  List.map_append

theorem arrived_arrivals (c : RuleType) (as : List (RuleType × Value)) :
    Grouped.arrived c (V.arrivals as) = (Grouped.arrived c as).map (V.value c) := by
  induction as with
  | nil => rfl
  | cons a rest ih =>
      obtain ⟨k, v⟩ := a
      show Grouped.arrived c ((k, V.value k v) :: V.arrivals rest) = _
      rw [Grouped.arrived_cons, Grouped.arrived_cons, ih, List.map_append]
      by_cases h : k = c
      · rw [if_pos h, if_pos h, h, List.map_singleton]
      · rw [if_neg h, if_neg h, List.map_nil]

/-- **Comments that came before** do not change how arrivals look. -/
theorem arrivals_before (uri : String) (f : Forest) : ∀ before before',
    V.arrivals (f.arrivals uri before) = V.arrivals (f.arrivals uri before') := by
  induction f using Forest.induction with
  | nil => intro before before'; rfl
  | leaf t rest ih =>
      intro before before'
      rw [Forest.arrivals_leaf, Forest.arrivals_leaf, arrivals_append, arrivals_append,
        ih _ (before' ++ t.comment?.toList)]
  | rule type children rest ihc ihr =>
      intro before before'
      have hnode : V.node (Node.ofArrivals type (children.arrivals uri before))
          = V.node (Node.ofArrivals type (children.arrivals uri before')) := by
        rw [← Node.addAll_empty, ← Node.addAll_empty]
        exact V.addAll_eq rfl (ihc before before')
      rw [Forest.arrivals_rule, Forest.arrivals_rule, arrivals_append, arrivals_append,
        V.arrival_eq hnode _ _ (before' ++ children.comments),
        ihr _ (before' ++ children.comments)]

/-- What arrives in a category arrives for the trees of the category. -/
theorem arrived_under (uri : String) (c : RuleType) (f : Forest) : ∀ before before',
    Grouped.arrived c (V.arrivals (f.arrivals uri before))
      = (V.arrivals ((f.under c).arrivals uri before')).map Prod.snd := by
  induction f with
  | nil => intro before before'; rfl
  | cons t rest ih =>
      intro before before'
      rw [Forest.under_cons]
      have hsplit : Forest.arrivals uri before (t :: rest)
          = Forest.arrivals uri before [t]
            ++ Forest.arrivals uri (before ++ Forest.comments [t]) rest :=
        Forest.arrivals_append uri before [t] rest
      have harrived : Grouped.arrived c (V.arrivals (Forest.arrivals uri before [t]))
          = if t.category = c then (V.arrivals (Forest.arrivals uri before [t])).map Prod.snd
            else [] := by
        rw [Forest.arrivals_singleton]
        cases t.filed? uri before with
        | none => exact (ite_self _).symm
        | some v => exact Grouped.arrived_singleton c t.category (V.value t.category v)
      rw [hsplit, arrivals_append, Grouped.arrived_append, harrived]
      by_cases h : t.category = c
      · rw [if_pos h, if_pos h, Forest.arrivals_append, arrivals_append, List.map_append,
          V.arrivals_before uri [t] before before',
          ih _ (before' ++ Forest.comments [t])]
      · rw [if_neg h, if_neg h, List.nil_append, List.nil_append]
        exact ih _ before'

end View

/-- A node looks the same after arrivals that look the same within each category. -/
theorem Node.read_addAll_eq {n : Node} {as bs : List (RuleType × Value)}
    (h : ∀ c, Grouped.arrived c (View.read.arrivals as)
      = Grouped.arrived c (View.read.arrivals bs)) :
    View.read.node (n.addAll as) = View.read.node (n.addAll bs) := by
  show (n.addAll as).seenAs (n.addAll as).type = (n.addAll bs).seenAs (n.addAll bs).type
  rw [type_addAll, type_addAll]
  refine seenAs_eq_iff.2 ⟨by rw [type_addAll, type_addAll], ?_⟩
  intro c e _
  have hvalues : (Grouped.arrived c as).map (Value.seen c)
      = (Grouped.arrived c bs).map (Value.seen c) := by
    have hc := h c
    rw [View.arrived_arrivals, View.arrived_arrivals] at hc
    exact hc
  rw [items_addAll, items_addAll, List.map_append, List.map_append, hvalues]

namespace Forest

/-- **What arrives for two forests that match** looks the same. -/
theorem Matched.arrivals_eq {f g : Forest} (h : Matched f g) (uri : String) : ∀ before before',
    View.read.arrivals (f.arrivals uri before) = View.read.arrivals (g.arrivals uri before') := by
  induction h with
  | nil => intro before before'; rfl
  | leaf t _ ih =>
      intro before before'
      rw [arrivals_leaf, arrivals_leaf, View.arrivals_append, View.arrivals_append,
        ih _ (before' ++ t.comment?.toList)]
  | @rule type children children' _ _ _ _ ihc ihr =>
      intro before before'
      have hnode : View.read.node (Node.ofArrivals type (children.arrivals uri before))
          = View.read.node (Node.ofArrivals type (children'.arrivals uri before')) := by
        rw [← Node.addAll_empty, ← Node.addAll_empty]
        apply Node.read_addAll_eq
        intro c
        rw [View.arrived_under _ uri c children _ before,
          View.arrived_under _ uri c children' _ before', ihc c before before']
      rw [arrivals_rule, arrivals_rule, View.arrivals_append, View.arrivals_append,
        View.read.arrival_eq hnode _ _ (before' ++ children'.comments),
        ihr _ (before' ++ children'.comments)]

/-- **A node cannot tell two reordered forests apart.** -/
theorem Reordered.read_eq {f g : Forest} (h : f.Reordered g) (n : Node) (uri : String)
    (before : List Comment) :
    View.read.node (n.addAll (f.arrivals uri before))
      = View.read.node (n.addAll (g.arrivals uri before)) := by
  apply Node.read_addAll_eq
  intro c
  rw [View.arrived_under _ uri c f _ before, View.arrived_under _ uri c g _ before,
    (h c).arrivals_eq uri before before]

end Forest

/-! ## §3. Streams. -/

/-- Where a run stands before the first event. -/
theorem Builder.stands_start (b : Builder) : b.Stands [] (.start b) := fun _ => rfl

/-- **Neighbours of different categories commute.**  When two neighbouring children of one rule, or
of the root, change places, the name of the file and the feature stay as they are, and the tables
that each of them reports, which are those of a run over the child alone, change places.  So the
feature depends on the order of children within each category only, at every depth. -/
theorem siblings_commute (b : Builder) :
    (∀ (front first second rest : List Event) (c d : RuleType),
        Nested (front ++ (first ++ second ++ rest)) →
        (∀ e ∈ front ++ (first ++ second ++ rest), e.Fits) →
        Child c first → Child d second → c ≠ d →
        ∃ p doc doc' own own' mine yours after, b.Stands front p
          ∧ (b.run false first).outcome = .ok ⟨own, mine⟩
          ∧ (b.run false second).outcome = .ok ⟨own', yours⟩
          ∧ (b.run false (front ++ (first ++ second ++ rest))).outcome
              = .ok ⟨doc, p.errors ++ (mine ++ yours ++ after)⟩
          ∧ (b.run false (front ++ (second ++ first ++ rest))).outcome
              = .ok ⟨doc', p.errors ++ (yours ++ mine ++ after)⟩
          ∧ doc.map Document.uncommented = doc'.map Document.uncommented)
      ∧ ∀ (f g : Forest) (es fs : List Event), f.Walked es → g.Walked fs →
        (∀ e ∈ es, e.Fits) → (∀ e ∈ fs, e.Fits) → f.Reordered g →
        ∃ doc doc' errors errors', (b.run false es).outcome = .ok ⟨doc, errors⟩
          ∧ (b.run false fs).outcome = .ok ⟨doc', errors'⟩
          ∧ doc.map Document.uncommented = doc'.map Document.uncommented := by
  refine ⟨?_, ?_⟩
  · intro front first second rest c d hnested hfits hfirst hsecond hne
    obtain ⟨t, rfl, ht⟩ := hfirst.exists_tree
    obtain ⟨u, rfl, hu⟩ := hsecond.exists_tree
    obtain ⟨hfront, hparts, -⟩ : (∀ e ∈ front, e.Fits)
        ∧ ((∀ e ∈ first, e.Fits) ∧ ∀ e ∈ second, e.Fits) ∧ ∀ e ∈ rest, e.Fits := by
      simpa only [List.forall_mem_append] using hfits
    obtain ⟨rules, hpending⟩ := hnested.exists_pending
    obtain ⟨p, n, outer, hstands, hstep, hstack, -⟩ := b.exists_stands hfront hpending
    obtain ⟨doc, doc', after, hrun, hswapped, hdoc⟩ :=
      hstands.replaced hstep hstack (ht.append hu) (hu.append ht)
        (List.forall_mem_append.2 hparts) (List.forall_mem_append.2 hparts.symm)
        ((Forest.reordered_swap hne).read_eq n _ _) (b.exists_outcome_nested hnested hfits)
    rw [Forest.faults_append, List.map_append] at hrun hswapped
    exact ⟨p, doc, doc', _, _, _, _, after, hstands, b.outcome_walked ht hparts.1,
      b.outcome_walked hu hparts.2, hrun, hswapped, hdoc⟩
  · intro f g es fs hf hg hes hfs hreordered
    have hok : ∃ build, (b.run false ([] ++ (es ++ []))).outcome = .ok build := by
      rw [List.append_nil]
      exact ⟨_, b.outcome_walked hf hes⟩
    obtain ⟨doc, doc', after, hrun, hother, hdoc⟩ :=
      b.stands_start.replaced (Progress.inStep_start b) rfl hf hg hes hfs
        (hreordered.read_eq _ _ _) hok
    rw [List.append_nil] at hrun hother
    exact ⟨doc, doc', _, _, hrun, hother, hdoc⟩

/-- A table whose second row is too short. -/
def raggedTable (type : RuleType) (line : UInt32) : List Event :=
  [ .opening type none,
    .leaf { type := .tableRow, location := ⟨line, 3⟩, items := [⟨5, "a"⟩, ⟨9, "b"⟩] } none,
    .leaf { type := .tableRow, location := ⟨line + 1, 3⟩, items := [⟨5, "c"⟩] } none,
    .closing type none ]

/-- The header of a feature, and its background. -/
def headedFeature : Forest :=
  [ .rule .gherkinDocument
      [ .rule .feature
          [ .rule .featureHeader
              [.leaf
                { type := .featureLine, location := ⟨1, 1⟩, keyword := "Feature", text := "F" }],
            .rule .background
              [ .leaf
                  { type := .backgroundLine, location := ⟨2, 3⟩, keyword := "Background"
                    text := "B" } ] ] ] ]

/-- The background in front of the header. -/
def headlessFeature : Forest :=
  [ .rule .gherkinDocument
      [ .rule .feature
          [ .rule .background
              [ .leaf
                  { type := .backgroundLine, location := ⟨2, 3⟩, keyword := "Background"
                    text := "B" } ],
            .rule .featureHeader
              [.leaf
                { type := .featureLine, location := ⟨1, 1⟩, keyword := "Feature"
                  text := "F" }] ] ] ]

theorem raggedTables_commute :
    (Nested ([.opening .step none] ++ (raggedTable .dataTable 2 ++ raggedTable .examplesTable 4
          ++ [.closing .step none]))
        ∧ ∃ table table' p doc doc' after, (Builder.new "a").Stands [.opening .step none] p
          ∧ ((Builder.new "a").run false ([.opening .step none] ++ (raggedTable .dataTable 2
              ++ raggedTable .examplesTable 4 ++ [.closing .step none]))).outcome
            = .ok ⟨doc, p.errors ++ ([table] ++ [table'] ++ after)⟩
          ∧ ((Builder.new "a").run false ([.opening .step none] ++ (raggedTable .examplesTable 4
              ++ raggedTable .dataTable 2 ++ [.closing .step none]))).outcome
            = .ok ⟨doc', p.errors ++ ([table'] ++ [table] ++ after)⟩
          ∧ doc.map Document.uncommented = doc'.map Document.uncommented)
      ∧ headedFeature.Reordered headlessFeature
      ∧ ∃ doc doc' errors errors',
        ((Builder.new "a").run false headedFeature.events).outcome = .ok ⟨doc, errors⟩
          ∧ ((Builder.new "a").run false headlessFeature.events).outcome = .ok ⟨doc', errors'⟩
          ∧ doc.map Document.uncommented = doc'.map Document.uncommented := by
  obtain ⟨hcommute, hreorder⟩ := siblings_commute (Builder.new "a")
  refine ⟨?_, ?_⟩
  · have hrows : ∀ line : UInt32, Nested
        [.leaf { type := .tableRow, location := ⟨line, 3⟩, items := [⟨5, "a"⟩, ⟨9, "b"⟩] } none,
          .leaf { type := .tableRow, location := ⟨line + 1, 3⟩, items := [⟨5, "c"⟩] } none] :=
      fun line => .leaf _ _ (.leaf _ _ .nil)
    have htable : ∀ type line, Child type (raggedTable type line) :=
      fun type line => .rule type _ _ (hrows line)
    have hnested : Nested ([.opening .step none] ++ (raggedTable .dataTable 2
        ++ raggedTable .examplesTable 4 ++ [.closing .step none])) :=
      .rule _ _ _ (.rule _ _ _ (hrows 2) (.rule _ _ _ (hrows 4) .nil)) .nil
    obtain ⟨p, doc, doc', own, own', mine, yours, after, hstands, hown, hown', hrun, hswapped,
      hdoc⟩ := hcommute [.opening .step none] (raggedTable .dataTable 2)
        (raggedTable .examplesTable 4) [.closing .step none] .dataTable .examplesTable hnested
        (by decide) (htable _ _) (htable _ _) (by decide)
    have hreport : ((Builder.new "a").run false (raggedTable .dataTable 2)).outcome
        = .ok ⟨none, [⟨⟨3, 3⟩, .element (.dataTable
            ⟨⟨2, 3⟩, [⟨⟨2, 3⟩, [⟨⟨2, 5⟩, "a"⟩, ⟨⟨2, 9⟩, "b"⟩]⟩, ⟨⟨3, 3⟩, [⟨⟨3, 5⟩, "c"⟩]⟩]⟩)⟩]⟩ := rfl
    have hreport' : ((Builder.new "a").run false (raggedTable .examplesTable 4)).outcome
        = .ok ⟨none, [⟨⟨5, 3⟩, .ofRows
            [⟨⟨4, 3⟩, [⟨⟨4, 5⟩, "a"⟩, ⟨⟨4, 9⟩, "b"⟩]⟩, ⟨⟨5, 3⟩, [⟨⟨5, 5⟩, "c"⟩]⟩]⟩]⟩ := rfl
    rw [hreport] at hown
    rw [hreport'] at hown'
    cases hown
    cases hown'
    exact ⟨hnested, _, _, p, doc, doc', after, hstands, hrun, hswapped, hdoc⟩
  · have hheader : ∀ t u : Tree, t.category ≠ u.category → Forest.Reordered
        [.rule .gherkinDocument [.rule .feature [t, u]]]
        [.rule .gherkinDocument [.rule .feature [u, t]]] := by
      intro t u hne
      have hfeature : Forest.Matched [.rule .feature [t, u]] [.rule .feature [u, t]] :=
        .rule _ (Forest.reordered_swap hne) .nil
      exact (Forest.Matched.rule _ hfeature.reordered .nil).reordered
    have hreordered : headedFeature.Reordered headlessFeature := hheader _ _ (by decide)
    have hwalked : ∀ f : Forest, f.events.map Event.bare = f.events → f.Walked f.events :=
      fun f h => h
    exact ⟨hreordered, hreorder _ _ _ _ (hwalked headedFeature rfl) (hwalked headlessFeature rfl)
      (by decide) (by decide) hreordered⟩

end Gherkin
