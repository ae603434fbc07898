/-
  Gherkin.Proofs.Siblings
  ───────────────────────
  **ONE PART OF A STREAM PUT IN PLACE OF ANOTHER.**

  A nested part of a stream adds to the innermost node and leaves everything
  below it alone.  If that node looks the same whether one part or another has
  been read, the rest of the stream cannot tell which it was:

    • `Child`, `Forest.Walked`  — a part of a stream that is one child of the
      innermost rule, and one that is any number of them,
    • `Builder.Stands`          — where a run is after the front of a stream,
    • `Progress.Agree.drive`    — two runs that look the same end alike,
    • `Builder.Stands.replaced` — so one part of a stream may stand in place of
      another: the feature stays, and each run reports its own part's tables.
-/
import Gherkin.Proofs.Acceptance
import Gherkin.Proofs.Extent
import Gherkin.Proofs.Replay

namespace Gherkin

/-! ## §1. Parts of streams. -/

/-- The event without the part that its kind does not need. -/
def Event.bare : Event → Event
  | .opening type _ => .opening type none
  | .closing type _ => .closing type none
  | .leaf token _ => .leaf token none

/-- Whether some events are a walk of a forest, whatever else they carry. -/
def Forest.Walked (f : Forest) (events : List Event) : Prop := events.map Event.bare = f.events

/-- The events of one child of a rule, and the category it is filed under: a token, or a rule with
all that is in it. -/
inductive Child : RuleType → List Event → Prop
  | leaf (token : Token) (spare : Option RuleType) : Child token.category [.leaf token spare]
  | rule (type : RuleType) (spare spare' : Option Token) {inner : List Event} :
      Nested inner → Child type (.opening type spare :: (inner ++ [.closing type spare']))

namespace Forest

theorem events_append (f g : Forest) : events (f ++ g) = events f ++ events g := by
  induction f with
  | nil => rfl
  | cons t rest ih =>
      show t.events ++ events (rest ++ g) = t.events ++ events rest ++ events g
      rw [ih, List.append_assoc]

theorem Walked.append {f g : Forest} {es fs : List Event} (hf : f.Walked es) (hg : g.Walked fs) :
    (f ++ g : Forest).Walked (es ++ fs) := by
  unfold Walked at *
  rw [List.map_append, hf, hg, events_append]

/-- Every nested stream is a walk. -/
theorem exists_walked {events : List Event} (h : Nested events) :
    ∃ f : Forest, f.Walked events := by
  induction h with
  | nil => exact ⟨[], rfl⟩
  | @leaf token spare rest _ ih =>
      obtain ⟨f, hf⟩ := ih
      refine ⟨.leaf token :: f, ?_⟩
      show .leaf token none :: rest.map Event.bare = _
      rw [hf, events_leaf]
  | rule type spare spare' _ _ ihinner ihrest =>
      obtain ⟨children, hchildren⟩ := ihinner
      obtain ⟨f, hf⟩ := ihrest
      refine ⟨.rule type children :: f, ?_⟩
      show _ :: (_ ++ _ :: _).map Event.bare = _
      rw [List.map_append, List.map_cons, hchildren, hf, events_rule]
      rfl

/-- A rule around the walk of its children. -/
theorem Walked.rule {children : Forest} {inner : List Event} (h : children.Walked inner)
    (type : RuleType) (spare spare' : Option Token) :
    Forest.Walked [.rule type children]
      (.opening type spare :: (inner ++ [.closing type spare'])) := by
  show _ :: (inner ++ [_]).map Event.bare = _
  rw [List.map_append, h, events_rule]
  rfl

theorem mem_events {f : Forest} {t : Token} (h : t ∈ f.tokens) : .leaf t none ∈ f.events := by
  induction f using Forest.induction with
  | nil => cases h
  | leaf u rest ih =>
      rw [events_leaf]
      rcases List.mem_cons.1 h with rfl | h
      · exact List.mem_cons_self
      · exact List.mem_cons_of_mem _ (ih h)
  | rule type children rest ihc ihr =>
      rw [events_rule]
      apply List.mem_cons_of_mem
      rcases List.mem_append.1 h with h | h
      · exact List.mem_append_left _ (ihc h)
      · exact List.mem_append_right _ (List.mem_cons_of_mem _ (ihr h))

/-- The columns of a forest fit if those of its walk do. -/
theorem Walked.fits {f : Forest} {events : List Event} (hf : f.Walked events)
    (h : ∀ e ∈ events, e.Fits) : ∀ t ∈ f.tokens, t.Fits := by
  intro t ht
  have hmem : .leaf t none ∈ events.map Event.bare := by
    rw [hf]
    exact mem_events ht
  obtain ⟨e, he, hbare⟩ := List.mem_map.1 hmem
  have hfits := h e he
  cases e with
  | leaf u spare =>
      obtain rfl : u = t := (Event.leaf.inj hbare).1
      exact hfits
  | opening type spare => cases hbare
  | closing type spare => cases hbare

/-- What arrives for a single tree. -/
theorem arrivals_singleton (uri : String) (before : List Comment) (t : Tree) :
    arrivals uri before [t] = ((t.filed? uri before).map fun v => (t.category, v)).toList := by
  show _ ++ [] = _
  rw [List.append_nil]

/-- What arrives for a tree arrives in its category. -/
theorem category_arrivals_singleton {uri : String} {before : List Comment} {t : Tree} :
    ∀ a ∈ arrivals uri before [t], a.1 = t.category := by
  intro a ha
  rw [arrivals_singleton] at ha
  obtain ⟨v, -, rfl⟩ := Option.map_eq_some_iff.1 (Option.mem_toList.1 ha)
  rfl

end Forest

/-- A child of a rule is a walk of one tree. -/
theorem Child.exists_tree {c : RuleType} {events : List Event} (h : Child c events) :
    ∃ t : Tree, t.category = c ∧ Forest.Walked [t] events := by
  cases h with
  | leaf token spare => exact ⟨.leaf token, rfl, rfl⟩
  | rule type spare spare' hinner =>
      obtain ⟨children, hchildren⟩ := Forest.exists_walked hinner
      exact ⟨.rule c children, rfl, hchildren.rule c spare spare'⟩

theorem Child.nested {c : RuleType} {events : List Event} (h : Child c events) :
    Nested events := by
  cases h with
  | leaf token spare => exact .leaf token spare .nil
  | rule type spare spare' hinner => exact .rule c spare spare' hinner .nil

/-- The front of a nested stream leaves some rules open. -/
theorem Nested.exists_pending {front rest : List Event} (h : Nested (front ++ rest)) :
    ∃ rules, Pending rules front := by
  have hnest := Event.nestAll_nested h []
  rw [Event.nestAll_append] at hnest
  cases hfront : Event.nestAll [] front with
  | ok rules => exact ⟨rules, Event.nestAll_eq_ok_iff.1 hfront⟩
  | error i =>
      rw [hfront] at hnest
      cases hnest

/-! ## §2. Where a run stands. -/

namespace Progress

theorem advance_bare (stop : Bool) (p : Progress) (e : Event) :
    p.advance stop e.bare = p.advance stop e := by
  cases e <;> rfl

/-- What events carry beyond their kind has no effect on a run. -/
theorem drive_bare (stop : Bool) (events : List Event) (p : Progress) :
    p.drive stop (events.map Event.bare) = p.drive stop events := by
  induction events generalizing p with
  | nil => rfl
  | cons e rest ih =>
      rw [List.map_cons]
      cases hout : p.advance stop e with
      | goOn next => rw [drive_goOn hout, drive_goOn ((advance_bare stop p e).trans hout), ih]
      | stop next => rw [drive_stop hout, drive_stop ((advance_bare stop p e).trans hout)]
      | fail fault next => rw [drive_fail hout, drive_fail ((advance_bare stop p e).trans hout)]

theorem drive_walked {f : Forest} {events : List Event} (hf : f.Walked events)
    (hfits : ∀ e ∈ events, e.Fits) {p : Progress} {n : Node} {outer : List Node}
    (hstack : p.builder.stack = n :: outer) (rest : List Event) :
    p.drive false (events ++ rest) = (p.after f).drive false rest := by
  rw [← drive_bare, List.map_append, hf,
    drive_events f (hf.fits hfits) p n outer hstack, drive_bare]

/-- A sound run goes on through events that nest, up to the rules that they leave open. -/
theorem Sound.goOn {events : List Event} {rules : List RuleType} (hfits : ∀ e ∈ events, e.Fits)
    {p : Progress} (h : p.Sound) (hnest : Event.nestAll p.openRules events = .ok rules) :
    ∃ q : Progress, q.Sound ∧ q.openRules = rules
      ∧ ∀ rest, p.drive false (events ++ rest) = q.drive false rest := by
  induction events generalizing p with
  | nil => exact ⟨p, h, Except.ok.inj hnest, fun _ => rfl⟩
  | cons e later ih =>
      have hstep := h.advance (hfits e List.mem_cons_self)
      unfold Event.nestAll at hnest
      cases hout : e.nest p.openRules with
      | error i =>
          rw [hout] at hnest
          cases hnest
      | ok between =>
          rw [hout] at hnest hstep
          obtain ⟨next, hnext, rfl, hsound⟩ := hstep
          obtain ⟨q, hq, hrules, hdrive⟩ :=
            ih (fun e' he' => hfits e' (List.mem_cons_of_mem _ he')) hsound hnest
          refine ⟨q, hq, hrules, ?_⟩
          intro rest
          rw [List.cons_append, drive_goOn hnext, hdrive]

theorem InStep.after {p : Progress} (h : p.InStep) (f : Forest) : (p.after f).InStep := by
  obtain ⟨n, outer, hstack⟩ := h.innermost
  unfold InStep at h ⊢
  show ((p.builder.stack.modifyHead _).map Node.type) = p.openRules ++ [.root]
  rw [← h, hstack, List.modifyHead_cons, List.map_cons, List.map_cons, Node.type_addAll]

end Progress

namespace Builder

/-- Whether a run stands at `p` after some events: whatever follows is handled from there. -/
def Stands (b : Builder) (seen : List Event) (p : Progress) : Prop :=
  ∀ rest, b.run false (seen ++ rest) = p.drive false rest

/-- Where a run stands after the front of a stream; the innermost node is that of the innermost
rule left open, or the root. -/
theorem exists_stands (b : Builder) {front : List Event} {rules : List RuleType}
    (hfits : ∀ e ∈ front, e.Fits) (hpending : Pending rules front) :
    ∃ p n outer, b.Stands front p ∧ p.InStep ∧ p.builder.stack = n :: outer
      ∧ n.type = rules.headD .root := by
  obtain ⟨p, hsound, hrules, hdrive⟩ :=
    (Progress.sound_start b).goOn hfits (Event.nestAll_pending hpending)
  have hstep : p.InStep := hsound.types
  obtain ⟨n, outer, hstack⟩ := hstep.innermost
  refine ⟨p, n, outer, hdrive, hstep, hstack, ?_⟩
  unfold Progress.InStep at hstep
  rw [hstack, hrules, List.map_cons] at hstep
  cases rules with
  | nil => exact (List.cons.inj hstep).1
  | cons innermost below => exact (List.cons.inj hstep).1

variable {b : Builder} {seen : List Event} {p : Progress} {n : Node} {outer : List Node}

/-- Where a run stands after one more opening. -/
theorem Stands.opening (h : b.Stands seen p) (type : RuleType) (spare : Option Token) :
    b.Stands (seen ++ [.opening type spare])
      { p with builder := p.builder.openRule type, openRules := type :: p.openRules } := by
  intro rest
  rw [List.append_assoc, h]
  exact Progress.drive_goOn (Progress.advance_opening p false type spare) rest

/-- Where a run stands after a nested part of a stream. -/
theorem Stands.walked (h : b.Stands seen p) (hstack : p.builder.stack = n :: outer) {f : Forest}
    {events : List Event} (hf : f.Walked events) (hfits : ∀ e ∈ events, e.Fits) :
    b.Stands (seen ++ events) (p.after f) := by
  intro rest
  rw [List.append_assoc, h, Progress.drive_walked hf hfits hstack]

/-- A run over a walk, whatever else its events carry. -/
theorem run_walked (b : Builder) (stop : Bool) {f : Forest} {events : List Event}
    (hf : f.Walked events) : b.run stop events = b.run stop f.events := by
  rw [← hf]
  exact (Progress.drive_bare stop events (.start b)).symm

/-- The outcome of a run over a walk. -/
theorem outcome_walked (b : Builder) {f : Forest} {events : List Event} (hf : f.Walked events)
    (hfits : ∀ e ∈ events, e.Fits) : (b.run false events).outcome = .ok (f.build b.uri) := by
  rw [b.run_walked false hf, b.run_events (hf.fits hfits)]

/-- With columns that fit, a nested stream has a result. -/
theorem exists_outcome_nested (b : Builder) {events : List Event} (hnested : Nested events)
    (hfits : ∀ e ∈ events, e.Fits) : ∃ build, (b.run false events).outcome = .ok build := by
  have hrun := b.run_imbalance? hfits
  rw [Event.imbalance?_eq_none_iff.2 hnested] at hrun
  exact hrun

end Builder

/-! ## §3. Two runs that look the same end alike. -/

namespace Node

/-- The document of two roots that look the same, up to its comments. -/
theorem document?_seen {n m : Node} (h : n.seenAs .root = m.seenAs .root) :
    ((n.first? .gherkinDocument).bind Value.document?).map Document.uncommented
      = ((m.first? .gherkinDocument).bind Value.document?).map Document.uncommented := by
  have hseen : ∀ v : Value, (v.seen .gherkinDocument).document?
      = v.document?.map Document.uncommented := by
    intro v
    cases v with
    | element e => exact Value.document?_uncommented (.element e)
    | _ => rfl
  have hforget : ∀ k : Node,
      ((k.first? .gherkinDocument).bind Value.document?).map Document.uncommented
        = ((k.first? .gherkinDocument).map (Value.seen .gherkinDocument)).bind
            Value.document? := by
    intro k
    cases k.first? .gherkinDocument with
    | none => rfl
    | some v => exact (hseen v).symm
  rw [hforget n, hforget m, first?_seen h (by decide)]

end Node

/-- Two outcomes that agree up to what two runs have reported before, and up to the comments of
documents. -/
inductive EndAlike (mine yours : List RaggedTable) :
    Except StreamFault Build → Except StreamFault Build → Prop
  | ok {doc doc' : Option Document} (new : List RaggedTable) :
      doc.map Document.uncommented = doc'.map Document.uncommented →
      EndAlike mine yours (.ok ⟨doc, mine ++ new⟩) (.ok ⟨doc', yours ++ new⟩)
  | error (fault : StreamFault) : EndAlike mine yours (.error fault) (.error fault)

namespace Progress

variable {p₀ q₀ p q : Progress}

theorem Agree.finish (h : p₀.Agree .read q₀ p q) (hp : p.InStep) (hrules : p.openRules = []) :
    EndAlike p₀.errors q₀.errors p.finish.outcome q.finish.outcome := by
  obtain ⟨n, outer, hstack⟩ := hp.innermost
  obtain ⟨m, outer', hstack', hn, -⟩ := h.stack_cons hstack
  obtain ⟨new, herrors, herrors'⟩ := h.errors
  -- no rule is open, so the innermost node is the root
  have hroot : n.type = .root := by
    unfold InStep at hp
    rw [hstack, hrules] at hp
    exact (List.cons.inj hp).1
  have hroot' : m.type = .root := (View.read.type_eq hn).symm.trans hroot
  change n.seenAs n.type = m.seenAs m.type at hn
  rw [hroot, hroot'] at hn
  rw [finish_eq hstack, finish_eq hstack', herrors, herrors']
  exact .ok new (Node.document?_seen hn)

/-- Two runs that look the same are in lockstep. -/
theorem lockstep_read (p₀ q₀ : Progress) :
    Lockstep false id (p₀.Agree .read q₀)
      (fun r s => EndAlike p₀.errors q₀.errors r.outcome s.outcome) where
  openRules h := h.openRules
  advance h hp e := h.advance hp false e
  finish h hp hend := h.finish hp (hend.resolve_right Bool.false_ne_true)
  fail _ fault := .error fault

/-- **Two runs that look the same end alike.** -/
theorem Agree.drive (h : p₀.Agree .read q₀ p q) (hp : p.InStep) (events : List Event) :
    EndAlike p₀.errors q₀.errors (p.drive false events).outcome
      (q.drive false events).outcome := by
  have hdrive := (lockstep_read p₀ q₀).drive h hp events
  rw [List.map_id] at hdrive
  exact hdrive

/-- Two forests after which the innermost node looks the same leave two runs looking the same. -/
theorem agree_after {n : Node} {outer : List Node} (hstack : p.builder.stack = n :: outer)
    {f g : Forest}
    (hsame : View.read.node (n.addAll (f.arrivals p.builder.documentUri p.builder.comments))
      = View.read.node (n.addAll (g.arrivals p.builder.documentUri p.builder.comments))) :
    (p.after f).Agree .read (p.after g) (p.after f) (p.after g) where
  uri := rfl
  documentUri := rfl
  stack := by
    show (p.builder.stack.modifyHead _).map View.read.node
      = (p.builder.stack.modifyHead _).map View.read.node
    rw [hstack, List.modifyHead_cons, List.modifyHead_cons, List.map_cons, List.map_cons, hsame]
  openRules := rfl
  errors := ⟨[], (List.append_nil _).symm, (List.append_nil _).symm⟩
  log := ⟨[], (List.append_nil _).symm, (List.append_nil _).symm⟩

end Progress

/-! ## §4. One part in place of another. -/

/-- **One part of a stream in place of another**, after which the innermost node looks the same:
the feature stays, and the tables of one part are reported in place of those of the other. -/
theorem Builder.Stands.replaced {b : Builder} {front rest es fs : List Event} {p : Progress}
    {n : Node} {outer : List Node} {f g : Forest} (h : b.Stands front p) (hp : p.InStep)
    (hstack : p.builder.stack = n :: outer) (hf : f.Walked es) (hg : g.Walked fs)
    (hes : ∀ e ∈ es, e.Fits) (hfs : ∀ e ∈ fs, e.Fits)
    (hsame : View.read.node (n.addAll (f.arrivals p.builder.documentUri p.builder.comments))
      = View.read.node (n.addAll (g.arrivals p.builder.documentUri p.builder.comments)))
    (hok : ∃ build, (b.run false (front ++ (es ++ rest))).outcome = .ok build) :
    ∃ doc doc' after,
      (b.run false (front ++ (es ++ rest))).outcome
          = .ok ⟨doc, p.errors ++ (f.faults.map Prod.snd ++ after)⟩
        ∧ (b.run false (front ++ (fs ++ rest))).outcome
          = .ok ⟨doc', p.errors ++ (g.faults.map Prod.snd ++ after)⟩
        ∧ doc.map Document.uncommented = doc'.map Document.uncommented := by
  have hend := (Progress.agree_after hstack hsame).drive (hp.after f) rest
  rw [← Progress.drive_walked hf hes hstack, ← Progress.drive_walked hg hfs hstack, ← h, ← h]
    at hend
  obtain ⟨build, hbuild⟩ := hok
  rw [hbuild] at hend ⊢
  generalize (b.run false (front ++ (fs ++ rest))).outcome = other at hend ⊢
  cases hend with
  | @ok doc doc' new hdoc =>
      refine ⟨doc, doc', new, ?_, ?_, hdoc⟩
      · rw [← List.append_assoc]
        rfl
      · rw [← List.append_assoc]
        rfl

end Gherkin
