/-
  Gherkin.Proofs.Overlooked
  ─────────────────────────
  **CHILDREN THAT A RULE DOES NOT READ.**

  A child is overlooked if its parent does not read its category, or reads
  only the first child of the category and this one comes later.  So are all
  children of a nested rule of the root's type: the root reads its first
  document, but no rule reads a root.  Dropping an overlooked child from a
  stream, with all that is in it, changes nothing but the list of ragged
  tables:

    • `Overlooked`                    — which children these are, said of the
      events in front of them,
    • `Node.read_addAll_overlooked`   — nothing that arrives for such a child
      can be seen in the node of its parent,
    • `Builder.dropped_of_sated`, `Builder.dropped_in_root` — the two runs, for
      a parent that reads no more of the category, and for a nested root,
    • `overlooked_child_is_invisible` — so the feature stays as it is, and the
      tables below the child are no longer reported.

  The tables have to be taken out of the list: they are reported wherever they
  stand, even below a child that nobody reads.
-/
import Gherkin.Proofs.Siblings

namespace Gherkin

/-- Whether a child of a category that comes next after some events is not read. -/
inductive Overlooked : List Event → RuleType → Prop
  /-- The innermost open rule does not read the category. -/
  | unread {rules : List RuleType} {front : List Event} {c : RuleType} :
      Pending rules front → (∀ e, (c, e) ∉ (rules.headD .root).reads) → Overlooked front c
  /-- The innermost open rule does not read the category in full, and has a child of it already. -/
  | late {rules : List RuleType} {outer earlier between : List Event} {c : RuleType} :
      Pending rules outer → Child c earlier → Nested between →
      (c, .all) ∉ (rules.headD .root).reads → Overlooked (outer ++ (earlier ++ between)) c
  /-- The innermost open rule is of the root's type, without being the root. -/
  | nestedRoot {rules : List RuleType} {front : List Event} {c : RuleType} :
      Pending (.root :: rules) front → Overlooked front c

/-! ## §1. What arrives for one child. -/

namespace Forest

variable {uri : String} {before : List Comment} {t : Tree}

/-- Something arrives for every tree whose columns fit, unless it is a comment. -/
theorem arrived_singleton_ne_nil (hfits : ∀ u ∈ tokens [t], u.Fits)
    (hcomment : t.category ≠ .leaf .comment) :
    Grouped.arrived t.category (arrivals uri before [t]) ≠ [] := by
  have hfiled : ∃ v, t.filed? uri before = some v := by
    cases t with
    | leaf u =>
        have htype : u.type ≠ .comment := fun h => hcomment (congrArg RuleType.leaf h)
        exact ⟨.token u, if_neg htype⟩
    | rule type children =>
        rw [tokens_rule, tokens_nil, List.append_nil] at hfits
        exact filed?_isSome uri before type hfits
  obtain ⟨v, hv⟩ := hfiled
  rw [arrivals_singleton, hv]
  show Grouped.arrived t.category [(t.category, v)] ≠ []
  rw [Grouped.arrived_singleton, if_pos rfl]
  exact List.cons_ne_nil _ _

end Forest

/-- A root is no table, so only what is below it is reported. -/
theorem Forest.faults_root (children : Forest) :
    Forest.faults [.rule .root children] = children.faults := by
  rw [faults_rule]
  show children.faults ++ [] ++ [] = children.faults
  rw [List.append_nil, List.append_nil]

/-- The two events around the inside of a rule have no columns. -/
theorem Event.fits_between {inner : List Event} (type : RuleType) (spare spare' : Option Token)
    (h : ∀ e ∈ inner, e.Fits) :
    ∀ e ∈ .opening type spare :: (inner ++ [.closing type spare']), e.Fits := by
  intro e he
  rcases List.mem_cons.1 he with rfl | he
  · exact fits_of_isBracket rfl
  · rcases List.mem_append.1 he with he | he
    · exact h e he
    · obtain rfl := List.mem_singleton.1 he
      exact fits_of_isBracket rfl

/-- No rule reads comments. -/
theorem RuleType.comment_notMem_reads (r : RuleType) (e : Extent) :
    (.leaf .comment, e) ∉ r.reads := by
  cases r <;> simp [reads]

/-- No rule reads a root. -/
theorem RuleType.root_notMem_reads (r : RuleType) (e : Extent) : (.root, e) ∉ r.reads := by
  cases r <;> simp [reads]

/-- Whether a node already has all that it reads of a category. -/
def Node.Sated (c : RuleType) (n : Node) : Prop :=
  ∀ e, (c, e) ∈ n.type.reads → e = .first ∧ n.items c ≠ []

/-- **Nothing more is seen of a category** that the node does not read, or no longer reads. -/
theorem Node.read_addAll_overlooked {n : Node} {c : RuleType} (h : n.Sated c)
    {arrivals : List (RuleType × Value)} (ha : ∀ a ∈ arrivals, a.1 = c) :
    View.read.node (n.addAll arrivals) = View.read.node n := by
  show (n.addAll arrivals).seenAs (n.addAll arrivals).type = n.seenAs n.type
  rw [type_addAll]
  refine seenAs_eq_iff.2 ⟨type_addAll arrivals n, ?_⟩
  intro k e hread
  rw [items_addAll]
  by_cases hk : k = c
  · subst hk
    obtain ⟨rfl, hne⟩ := h e hread
    -- the first child is there already, whatever comes after it
    cases hitems : n.items k with
    | nil => exact absurd hitems hne
    | cons v values => rfl
  · have hnone : Grouped.arrived k arrivals = [] := by
      apply Grouped.arrived_eq_nil
      intro hmem
      obtain ⟨a, ham, hka⟩ := List.mem_map.1 hmem
      exact hk (hka.symm.trans (ha a ham))
    rw [hnone, List.append_nil]

/-! ## §2. Where a run stands in front of the child. -/

/-- In front of an overlooked child, the innermost node has all that it reads of the category, or
is a nested root. -/
theorem Overlooked.stands {front : List Event} {c : RuleType} (h : Overlooked front c)
    (hfits : ∀ e ∈ front, e.Fits) (b : Builder) :
    (∃ p n outer, b.Stands front p ∧ p.InStep ∧ p.builder.stack = n :: outer ∧ n.Sated c)
      ∨ ∃ rules, Pending (.root :: rules) front := by
  cases h with
  | nestedRoot hpending => exact .inr ⟨_, hpending⟩
  | unread hpending hunread =>
      obtain ⟨p, n, outer, hstands, hstep, hstack, htype⟩ := b.exists_stands hfits hpending
      refine .inl ⟨p, n, outer, hstands, hstep, hstack, ?_⟩
      intro e hread
      rw [htype] at hread
      exact absurd hread (hunread e)
  | @late rules front earlier between _ hpending hearlier hbetween hall =>
      obtain ⟨t, rfl, ht⟩ := hearlier.exists_tree
      obtain ⟨g, hg⟩ := Forest.exists_walked hbetween
      have hfront : ∀ e ∈ front, e.Fits := fun e he => hfits e (List.mem_append_left _ he)
      have hrest : ∀ e ∈ earlier ++ between, e.Fits :=
        fun e he => hfits e (List.mem_append_right _ he)
      obtain ⟨p, n, outer, hstands, hstep, hstack, htype⟩ := b.exists_stands hfront hpending
      refine .inl ⟨p.after ([t] ++ g), _, outer, hstands.walked hstack (ht.append hg) hrest,
        hstep.after _, congrArg (List.modifyHead _) hstack, ?_⟩
      intro e hread
      rw [Node.type_addAll, htype] at hread
      refine ⟨?_, ?_⟩
      · cases e with
        | first => rfl
        | all => exact absurd hread hall
      · have hcomment : t.category ≠ .leaf .comment := by
          intro hc
          rw [hc] at hread
          exact RuleType.comment_notMem_reads _ e hread
        have harrived : Grouped.arrived t.category
            (Forest.arrivals p.builder.documentUri p.builder.comments [t]) ≠ [] :=
          Forest.arrived_singleton_ne_nil
            (ht.fits fun e he => hrest e (List.mem_append_left _ he)) hcomment
        rw [Node.items_addAll, Forest.arrivals_append, Grouped.arrived_append]
        simp [harrived]

/-! ## §3. Streams without the child. -/

namespace Builder

variable (b : Builder) {front child rest : List Event} {t : Tree}

/-- A child of a node that reads no more of its category is dropped. -/
theorem dropped_of_sated {p : Progress} {n : Node} {outer : List Node}
    (hstands : b.Stands front p) (hstep : p.InStep) (hstack : p.builder.stack = n :: outer)
    (hsated : n.Sated t.category) (ht : Forest.Walked [t] child)
    (hnested : Nested (front ++ (child ++ rest)))
    (hfits : ∀ e ∈ front ++ (child ++ rest), e.Fits) :
    ∃ doc doc' after,
      (b.run false (front ++ (child ++ rest))).outcome
          = .ok ⟨doc, p.errors ++ ((Forest.faults [t]).map Prod.snd ++ after)⟩
        ∧ (b.run false (front ++ rest)).outcome = .ok ⟨doc', p.errors ++ after⟩
        ∧ doc.map Document.uncommented = doc'.map Document.uncommented := by
  have hown : ∀ e ∈ child, e.Fits :=
    fun e he => hfits e (List.mem_append_right _ (List.mem_append_left _ he))
  -- nothing is put in place of the child
  have hnothing : Forest.Walked [] [] := rfl
  have hnone : n.addAll (Forest.arrivals p.builder.documentUri p.builder.comments []) = n := rfl
  have hsame : View.read.node
        (n.addAll (Forest.arrivals p.builder.documentUri p.builder.comments [t]))
      = View.read.node
        (n.addAll (Forest.arrivals p.builder.documentUri p.builder.comments [])) := by
    rw [hnone]
    exact Node.read_addAll_overlooked hsated Forest.category_arrivals_singleton
  exact hstands.replaced hstep hstack ht hnothing hown (List.forall_mem_nil _) hsame
    (b.exists_outcome_nested hnested hfits)

/-- Where a run stands in a rule that has just been opened, after a nested part of it. -/
theorem Stands.inside {seen inner : List Event} {p : Progress} {f : Forest} (h : b.Stands seen p)
    (type : RuleType) (spare : Option Token) (hf : f.Walked inner)
    (hfits : ∀ e ∈ inner, e.Fits) :
    b.Stands (seen ++ .opening type spare :: inner)
      (Progress.after f
        { p with builder := p.builder.openRule type, openRules := type :: p.openRules }) := by
  rw [List.append_cons]
  exact (h.opening type spare).walked (stack_openRule type _) hf hfits

/-- **Nothing inside a nested root is seen**: one part of a stream may stand there in place of any
other, and each run reports its own part's tables. -/
theorem Stands.replaced_in_root {es fs : List Event} {f g : Forest} {p : Progress} {n : Node}
    {outer : List Node} {spare spare' : Option Token} (h : b.Stands front p) (hp : p.InStep)
    (hstack : p.builder.stack = n :: outer) (hf : f.Walked es) (hg : g.Walked fs)
    (hes : ∀ e ∈ es, e.Fits) (hfs : ∀ e ∈ fs, e.Fits)
    (hok : ∃ build, (b.run false
      (front ++ .opening .root spare :: (es ++ .closing .root spare' :: rest))).outcome
        = .ok build) :
    ∃ doc doc' after,
      (b.run false
          (front ++ .opening .root spare :: (es ++ .closing .root spare' :: rest))).outcome
          = .ok ⟨doc, p.errors ++ (f.faults.map Prod.snd ++ after)⟩
        ∧ (b.run false
          (front ++ .opening .root spare :: (fs ++ .closing .root spare' :: rest))).outcome
          = .ok ⟨doc', p.errors ++ (g.faults.map Prod.snd ++ after)⟩
        ∧ doc.map Document.uncommented = doc'.map Document.uncommented := by
  have hrule : ∀ inner : List Event,
      .opening .root spare :: (inner ++ .closing .root spare' :: rest)
        = .opening .root spare :: (inner ++ [.closing .root spare']) ++ rest := by
    intro inner
    rw [List.cons_append, List.append_assoc]
    rfl
  -- whatever arrives for a root, the rule around it does not read it
  have hsated : n.Sated .root := fun e hread => absurd hread (RuleType.root_notMem_reads _ e)
  have hunseen : ∀ children : Forest,
      View.read.node (n.addAll
          (Forest.arrivals p.builder.documentUri p.builder.comments [.rule .root children]))
        = View.read.node n :=
    fun _ => Node.read_addAll_overlooked hsated Forest.category_arrivals_singleton
  rw [hrule] at hok
  have hreplaced := h.replaced hp hstack (hf.rule .root spare spare') (hg.rule .root spare spare')
    (Event.fits_between .root spare spare' hes) (Event.fits_between .root spare spare' hfs)
    ((hunseen _).trans (hunseen _).symm) hok
  rw [Forest.faults_root, Forest.faults_root] at hreplaced
  rw [hrule, hrule]
  exact hreplaced

/-- A child of a nested root is dropped: the root with it, and without it. -/
theorem dropped_in_root {rules : List RuleType} (hfront : Pending (.root :: rules) front)
    (ht : Forest.Walked [t] child) (hchild : Nested child)
    (hnested : Nested (front ++ (child ++ rest)))
    (hfits : ∀ e ∈ front ++ (child ++ rest), e.Fits) :
    ∃ p doc doc' after, b.Stands front p
      ∧ (b.run false (front ++ (child ++ rest))).outcome
          = .ok ⟨doc, p.errors ++ ((Forest.faults [t]).map Prod.snd ++ after)⟩
      ∧ (b.run false (front ++ rest)).outcome = .ok ⟨doc', p.errors ++ after⟩
      ∧ doc.map Document.uncommented = doc'.map Document.uncommented := by
  have hok := b.exists_outcome_nested hnested hfits
  rw [← List.append_assoc] at hnested
  obtain ⟨own, spare', later, rfl, hown⟩ := (hfront.append hchild).exists_closing hnested
  cases hfront with
  | @opened _ spare _ outer before houter hbefore =>
      obtain ⟨f, hf⟩ := Forest.exists_walked hbefore
      obtain ⟨g, hg⟩ := Forest.exists_walked hown
      -- the children of the root on either side of the child that is dropped
      have hstream : ∀ inner : List Event,
          outer ++ .opening .root spare :: before
              ++ (inner ++ (own ++ .closing .root spare' :: later))
            = outer ++ .opening .root spare ::
              (before ++ (inner ++ own) ++ .closing .root spare' :: later) := by
        intro inner
        simp only [List.append_assoc, List.cons_append]
      rw [hstream] at hfits hok
      have houterFits : ∀ e ∈ outer, e.Fits := fun e he => hfits e (List.mem_append_left _ he)
      have hinnerFits : ∀ e ∈ before ++ (child ++ own), e.Fits := fun e he =>
        hfits e (List.mem_append_right _ (List.mem_cons_of_mem _ (List.mem_append_left _ he)))
      have hshort : (before ++ own).Sublist (before ++ (child ++ own)) :=
        (List.Sublist.refl before).append (List.sublist_append_right child own)
      have hshortFits : ∀ e ∈ before ++ own, e.Fits :=
        fun e he => hinnerFits e (hshort.mem he)
      obtain ⟨p, n, below, hstands, hstep, hstack, -⟩ := b.exists_stands houterFits houter
      obtain ⟨doc, doc', after, hwith, hwithout, hdoc⟩ := hstands.replaced_in_root b hstep hstack
        (hf.append (ht.append hg)) (hf.append hg) hinnerFits hshortFits hok
      have hbare := hstream []
      rw [List.nil_append, List.nil_append] at hbare
      rw [← hstream] at hwith
      rw [← hbare] at hwithout
      refine ⟨_, doc, doc', g.faults.map Prod.snd ++ after,
        hstands.inside b .root spare hf fun e he => hinnerFits e (List.mem_append_left _ he),
        ?_, ?_, hdoc⟩
      · rw [hwith, Forest.faults_append, Forest.faults_append, List.map_append, List.map_append]
        simp only [Progress.after, List.append_assoc]
      · rw [hwithout, Forest.faults_append, List.map_append]
        simp only [Progress.after, List.append_assoc]

end Builder

/-- **A child that its parent does not read is invisible.**  A nested stream and the same stream
without the child give the same document, up to its comments: the same name of the file and the
same feature.  The ragged tables of the child, which are those of a run over the child alone, are
missing where it was dropped, and no others are. -/
theorem overlooked_child_is_invisible (b : Builder) {front child rest : List Event} {c : RuleType}
    (hnested : Nested (front ++ (child ++ rest)))
    (hfits : ∀ e ∈ front ++ (child ++ rest), e.Fits) (hchild : Child c child)
    (hover : Overlooked front c) :
    ∃ p doc doc' own lost after, b.Stands front p
      ∧ (b.run false child).outcome = .ok ⟨own, lost⟩
      ∧ (b.run false (front ++ (child ++ rest))).outcome
          = .ok ⟨doc, p.errors ++ (lost ++ after)⟩
      ∧ (b.run false (front ++ rest)).outcome = .ok ⟨doc', p.errors ++ after⟩
      ∧ doc.map Document.uncommented = doc'.map Document.uncommented := by
  obtain ⟨t, rfl, ht⟩ := hchild.exists_tree
  have hown : ∀ e ∈ child, e.Fits :=
    fun e he => hfits e (List.mem_append_right _ (List.mem_append_left _ he))
  have halone : (b.run false child).outcome
      = .ok ⟨Forest.document? b.uri [] [t], (Forest.faults [t]).map Prod.snd⟩ :=
    b.outcome_walked ht hown
  rcases hover.stands (fun e he => hfits e (List.mem_append_left _ he)) b with
    ⟨p, n, outer, hstands, hstep, hstack, hsated⟩ | ⟨rules, hpending⟩
  · obtain ⟨doc, doc', after, hwith, hwithout, hdoc⟩ :=
      b.dropped_of_sated hstands hstep hstack hsated ht hnested hfits
    exact ⟨p, doc, doc', _, _, after, hstands, halone, hwith, hwithout, hdoc⟩
  · obtain ⟨p, doc, doc', after, hstands, hwith, hwithout, hdoc⟩ :=
      b.dropped_in_root hpending ht hchild.nested hnested hfits
    exact ⟨p, doc, doc', _, _, after, hstands, halone, hwith, hwithout, hdoc⟩

/-- A step with rows of different lengths, which reports its table. -/
def strayStep : List Event :=
  [ .opening .step none,
    .opening .dataTable none,
    .leaf { type := .tableRow, location := ⟨3, 5⟩, items := [⟨7, "a"⟩, ⟨11, "b"⟩] } none,
    .leaf { type := .tableRow, location := ⟨4, 5⟩, items := [⟨7, "c"⟩] } none,
    .closing .dataTable none,
    .closing .step none ]

/-- The start of a document, up to where its feature could have a background or a scenario. -/
def openFeature : List Event :=
  [ .opening .gherkinDocument none,
    .opening .feature none,
    .opening .featureHeader none,
    .leaf { type := .featureLine, location := ⟨1, 1⟩, keyword := "Feature", text := "F" } none,
    .closing .featureHeader none ]

/-- The end of the document. -/
def closeFeature : List Event := [.closing .feature none, .closing .gherkinDocument none]

theorem strayStep_is_invisible :
    Nested (openFeature ++ (strayStep ++ closeFeature))
      ∧ (∀ e ∈ openFeature ++ (strayStep ++ closeFeature), e.Fits)
      ∧ Child .step strayStep ∧ Overlooked openFeature .step
      ∧ ∃ table p doc doc' after, (Builder.new "a").Stands openFeature p
        ∧ ((Builder.new "a").run false strayStep).outcome = .ok ⟨none, [table]⟩
        ∧ ((Builder.new "a").run false (openFeature ++ (strayStep ++ closeFeature))).outcome
            = .ok ⟨doc, p.errors ++ ([table] ++ after)⟩
        ∧ ((Builder.new "a").run false (openFeature ++ closeFeature)).outcome
            = .ok ⟨doc', p.errors ++ after⟩
        ∧ doc.map Document.uncommented = doc'.map Document.uncommented := by
  have htable : Nested
      [.opening .dataTable none,
        .leaf { type := .tableRow, location := ⟨3, 5⟩, items := [⟨7, "a"⟩, ⟨11, "b"⟩] } none,
        .leaf { type := .tableRow, location := ⟨4, 5⟩, items := [⟨7, "c"⟩] } none,
        .closing .dataTable none] :=
    .rule _ _ _ (.leaf _ _ (.leaf _ _ .nil)) .nil
  have hheader : Nested
      [.opening .featureHeader none,
        .leaf { type := .featureLine, location := ⟨1, 1⟩, keyword := "Feature", text := "F" } none,
        .closing .featureHeader none] :=
    .rule _ _ _ (.leaf _ _ .nil) .nil
  have hnested : Nested (openFeature ++ (strayStep ++ closeFeature)) :=
    .rule _ _ _ (.rule _ _ _ (hheader.append (.rule _ _ _ htable .nil)) .nil) .nil
  have hfits : ∀ e ∈ openFeature ++ (strayStep ++ closeFeature), e.Fits := by decide
  have hchild : Child .step strayStep := .rule _ _ _ htable
  have hpending : Pending [.feature, .gherkinDocument] openFeature :=
    .opened _ _ (.opened _ _ (.nested .nil) .nil) hheader
  have hover : Overlooked openFeature .step := .unread hpending (by simp [RuleType.reads])
  obtain ⟨p, doc, doc', own, lost, after, hstands, hown, hwith, hwithout, hdoc⟩ :=
    overlooked_child_is_invisible (Builder.new "a") hnested hfits hchild hover
  have hreport : ((Builder.new "a").run false strayStep).outcome
      = .ok ⟨none, [⟨⟨4, 5⟩, .element (.dataTable
          ⟨⟨3, 5⟩, [⟨⟨3, 5⟩, [⟨⟨3, 7⟩, "a"⟩, ⟨⟨3, 11⟩, "b"⟩]⟩, ⟨⟨4, 5⟩, [⟨⟨4, 7⟩, "c"⟩]⟩]⟩)⟩]⟩ :=
    rfl
  rw [hreport] at hown
  cases hown
  exact ⟨hnested, hfits, hchild, hover, _, p, doc, doc', after, hstands, hreport, hwith, hwithout,
    hdoc⟩

end Gherkin
