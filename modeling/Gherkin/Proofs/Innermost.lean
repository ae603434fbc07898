/-
  Gherkin.Proofs.Innermost
  ────────────────────────
  **WHICH DOCUMENT A BUILDER GIVES, WHATEVER IS OPEN.**

  A builder can be asked for its document at any time.  It looks at its
  innermost open rule, which is the root only while no other rule is open, and
  gives the first document that was closed directly in that rule.

    • `NeverClosesRoot` — calls of which no beginning closes more rules than
      it opens; what they report is of no account,
    • `Since` — such calls are what led to the opening of the innermost open
      rule and, behind it, a balanced run,
    • `DocumentsIn` — the documents closed directly in a balanced run: for
      each of them, the part of the run before its closing,
    • `Builder.carryOn_documentsIn` — these documents, in their order, are
      what the run files as documents on the innermost node,
    • `document_of_innermost_rule` — so the first of them is the answer.

  A run that stops at a ragged table asks while the rule around the table is
  open, so its result is a document closed directly in that rule.
-/
import Gherkin.Proofs.Comments
import Gherkin.Proofs.Stopping
import Mathlib.Data.List.Infix

namespace Gherkin

/-! ## §1. Calls that never close the root. -/

namespace Event

/-- The number of rules that calls open. -/
def openings (calls : List Event) : Nat :=
  calls.countP fun
    | .opening _ _ => true
    | _ => false

/-- The number of rules that calls close. -/
def closings (calls : List Event) : Nat :=
  calls.countP fun
    | .closing _ _ => true
    | _ => false

theorem openings_append (first second : List Event) :
    openings (first ++ second) = openings first + openings second := List.countP_append

theorem closings_append (first second : List Event) :
    closings (first ++ second) = closings first + closings second := List.countP_append

end Event

/-- Whether calls never close more rules than they have opened so far. -/
def NeverClosesRoot (calls : List Event) : Prop :=
  ∀ before, before <+: calls → Event.closings before ≤ Event.openings before

/-- Calls that leave a number of rules open: balanced runs with an opening between any two. -/
inductive LeavesOpen : Nat → List Event → Prop
  | none {run : List Event} {own : List Token} : Balanced run own → LeavesOpen 0 run
  | one {k : Nat} {outer run : List Event} {own : List Token} (type : RuleType)
      (spare : Option Token) :
      LeavesOpen k outer → Balanced run own →
      LeavesOpen (k + 1) (outer ++ .opening type spare :: run)

namespace Balanced

variable {first second : List Event} {own own' : List Token}

theorem append (h : Balanced first own) (h' : Balanced second own') :
    Balanced (first ++ second) (own ++ own') := by
  induction h with
  | nil => exact h'
  | leaf t spare _ ih => exact .leaf t spare ih
  | rule type named spare spare' hinner _ _ ih =>
      rw [List.cons_append, List.append_assoc]
      exact .rule type named spare spare' hinner ih

end Balanced

namespace LeavesOpen

variable {k : Nat} {calls : List Event}

theorem leaf (h : LeavesOpen k calls) (t : Token) (spare : Option RuleType) :
    LeavesOpen k (calls ++ [.leaf t spare]) := by
  cases h with
  | none hrun => exact .none (hrun.append (.leaf t spare .nil))
  | one type spare' houter hrun =>
      rw [List.append_assoc]
      exact .one type spare' houter (hrun.append (.leaf t spare .nil))

theorem opening (h : LeavesOpen k calls) (type : RuleType) (spare : Option Token) :
    LeavesOpen (k + 1) (calls ++ [.opening type spare]) := .one type spare h .nil

/-- A closing ends the innermost open rule, which joins the run around it. -/
theorem closing (h : LeavesOpen (k + 1) calls) (named : RuleType) (spare : Option Token) :
    LeavesOpen k (calls ++ [.closing named spare]) := by
  cases h with
  | @one _ outer run own type spare' houter hrun =>
      have hrule : Balanced (.opening type spare' :: (run ++ [.closing named spare])) [] :=
        .rule type named spare' spare hrun .nil
      rw [List.append_assoc]
      cases houter with
      | none houter => exact .none (houter.append hrule)
      | one type' spare'' houter hbefore =>
          rw [List.append_assoc]
          exact .one type' spare'' houter (hbefore.append hrule)

end LeavesOpen

/-- **Calls that never close the root** leave open the rules that they opened and did not close. -/
theorem NeverClosesRoot.leavesOpen {calls : List Event} (h : NeverClosesRoot calls) :
    ∃ k, LeavesOpen k calls ∧ Event.openings calls = Event.closings calls + k := by
  -- from the back: only the last call can have closed the rule that was innermost before it
  induction calls using List.reverseRecOn with
  | nil => exact ⟨0, .none .nil, rfl⟩
  | append_singleton calls e ih =>
      have hbefore : NeverClosesRoot calls :=
        fun before hle => h before (hle.trans (List.prefix_append calls [e]))
      obtain ⟨k, hopen, hcount⟩ := ih hbefore
      have hall := h _ (List.prefix_refl _)
      rw [Event.openings_append, Event.closings_append] at hall ⊢
      cases e with
      | leaf t spare => exact ⟨k, hopen.leaf t spare, hcount⟩
      | opening type spare =>
          refine ⟨k + 1, hopen.opening type spare, ?_⟩
          show Event.openings calls + 1 = Event.closings calls + 0 + (k + 1)
          omega
      | closing named spare =>
          replace hall : Event.closings calls + 1 ≤ Event.openings calls + 0 := hall
          -- a rule is open, since the closing is not that of the root
          obtain ⟨m, rfl⟩ : ∃ m, k = m + 1 := ⟨k - 1, by omega⟩
          refine ⟨m, hopen.closing named spare, ?_⟩
          show Event.openings calls + 0 = Event.closings calls + 1 + m
          omega

/-! ## §2. Documents closed directly in a run. -/

/-- The documents closed directly in a balanced run: the part of the run before each closing.  What
is closed inside other rules is not among them. -/
inductive DocumentsIn : List Event → List (List Event) → Prop
  | nil : DocumentsIn [] []
  | leaf {rest : List Event} {ends : List (List Event)} (token : Token) (spare : Option RuleType) :
      DocumentsIn rest ends →
      DocumentsIn (.leaf token spare :: rest) (ends.map (.leaf token spare :: ·))
  | document {inner rest : List Event} {inside : List Token} {ends : List (List Event)}
      (named : RuleType) (spare spare' : Option Token) :
      Balanced inner inside → DocumentsIn rest ends →
      DocumentsIn (.opening .gherkinDocument spare :: (inner ++ .closing named spare' :: rest))
        ((.opening .gherkinDocument spare :: inner)
          :: ends.map fun before =>
              .opening .gherkinDocument spare :: (inner ++ .closing named spare' :: before))
  | other {type : RuleType} {inner rest : List Event} {inside : List Token}
      {ends : List (List Event)} (named : RuleType) (spare spare' : Option Token) :
      type ≠ .gherkinDocument → Balanced inner inside → DocumentsIn rest ends →
      DocumentsIn (.opening type spare :: (inner ++ .closing named spare' :: rest))
        (ends.map fun before => .opening type spare :: (inner ++ .closing named spare' :: before))

/-- Every balanced run has its documents. -/
theorem Balanced.exists_documentsIn {run : List Event} {own : List Token} (h : Balanced run own) :
    ∃ ends, DocumentsIn run ends := by
  induction h with
  | nil => exact ⟨[], .nil⟩
  | leaf t spare _ ih =>
      obtain ⟨ends, hends⟩ := ih
      exact ⟨_, .leaf t spare hends⟩
  | rule type named spare spare' hinner _ _ ih =>
      obtain ⟨ends, hends⟩ := ih
      by_cases htype : type = .gherkinDocument
      · subst htype
        exact ⟨_, .document named spare spare' hinner hends⟩
      · exact ⟨_, .other named spare spare' htype hinner hends⟩

/-- Whether a document is what the closing behind some calls files. -/
def Builder.Files (b : Builder) (before : List Event) (d : Document) : Prop :=
  (b.carryOn before).closeRule.1 = .ok (.element (.document d))

namespace Builder

/-- A whole rule, and what follows it. -/
theorem carryOn_rule (b : Builder) (type named : RuleType) (spare spare' : Option Token)
    (inner rest : List Event) :
    b.carryOn (.opening type spare :: (inner ++ .closing named spare' :: rest)) =
      ((b.carryOn (.opening type spare :: inner)).handle (.closing named spare')).2.carryOn
        rest := by
  rw [← List.cons_append, carryOn_append, carryOn_cons]

/-- The node of a rule before its closing, and what arrives from it at the node below. -/
theorem exists_closed {b : Builder} {n : Node} {outer : List Node} (hb : b.stack = n :: outer)
    {inner : List Event} {inside : List Token} (hinner : Balanced inner inside)
    (type named : RuleType) (spare spare' : Option Token) :
    ∃ closed : Node, closed.type = type
      ∧ (b.carryOn (.opening type spare :: inner)).stack = closed :: n :: outer
      ∧ ((b.carryOn (.opening type spare :: inner)).handle (.closing named spare')).2.stack
        = n.addAll (closed.arrival (b.carryOn (.opening type spare :: inner)).source) :: outer := by
  obtain ⟨arrivals, hrun, -⟩ := carryOn_balanced hinner (stack_openRule type b)
  have hstack := congrArg Builder.stack (carryOn_opening hb hrun spare)
  refine ⟨(Node.empty type).addAll arrivals, Node.type_addAll arrivals _, hstack, ?_⟩
  rw [handle_closing hstack]

/-- Closing a document files it. -/
theorem closeRule_document {b : Builder} {n m : Node} {outer : List Node}
    (hb : b.stack = n :: m :: outer) (hn : n.type = .gherkinDocument) :
    ∃ d : Document, b.closeRule.1 = .ok (.element (.document d))
      ∧ n.arrival b.source = [(.gherkinDocument, .element (.document d))] := by
  have hassemble := Node.assemble_gherkinDocument hn b.documentUri b.comments
  refine ⟨_, ?_, hn ▸ Node.arrival_of_filed (Node.filed?_of_ok hassemble)⟩
  rw [closeRule_eq hb]
  exact congrArg verdict hassemble

/-- **A balanced run files the documents closed directly in it**, in their order, and nothing else
as documents. -/
theorem carryOn_documentsIn {run : List Event} {ends : List (List Event)}
    (h : DocumentsIn run ends) :
    ∀ {b : Builder} {n : Node} {outer : List Node}, b.stack = n :: outer →
      ∃ (after : Node) (filed : List Document), (b.carryOn run).stack = after :: outer
        ∧ after.items .gherkinDocument
          = n.items .gherkinDocument ++ filed.map (fun d => .element (.document d))
        ∧ List.Forall₂ b.Files ends filed := by
  induction h with
  | nil =>
      intro b n outer hb
      exact ⟨n, [], hb, (List.append_nil _).symm, .nil⟩
  | leaf t spare _ ih =>
      intro b n outer hb
      have hleaf : (b.handle (.leaf t spare)).2.stack = n.addAll t.arrival :: outer := by
        rw [handle_leaf hb]
      obtain ⟨after, filed, hstack, hitems, hfiled⟩ := ih hleaf
      refine ⟨after, filed, hstack, ?_, ?_⟩
      · have hne : t.category ≠ .gherkinDocument := nofun
        rw [hitems, Node.items_addAll, Token.arrived_arrival_of_ne hne, List.append_nil]
      · rw [List.forall₂_map_left_iff]
        exact hfiled
  | @document inner rest inside ends named spare spare' hinner _ ih =>
      intro b n outer hb
      obtain ⟨closed, htype, hclosed, hafter⟩ :=
        exists_closed hb hinner .gherkinDocument named spare spare'
      -- the document arrives first, and the rest of the run files behind it
      obtain ⟨d, hd, harrival⟩ := closeRule_document hclosed htype
      obtain ⟨after, filed, hstack, hitems, hfiled⟩ := ih hafter
      refine ⟨after, d :: filed, ?_, ?_, .cons hd ?_⟩
      · rw [carryOn_rule, hstack]
      · rw [hitems, Node.items_addAll, harrival, Grouped.arrived_singleton, if_pos rfl,
          List.append_assoc, List.singleton_append, List.map_cons]
      · rw [List.forall₂_map_left_iff]
        refine hfiled.imp fun before d' hd' => ?_
        unfold Files at hd' ⊢
        rwa [carryOn_rule]
  | @other type inner rest inside ends named spare spare' htype hinner _ ih =>
      intro b n outer hb
      -- what a rule of another type leaves behind is filed under that type
      obtain ⟨closed, hclosed, -, hafter⟩ := exists_closed hb hinner type named spare spare'
      obtain ⟨after, filed, hstack, hitems, hfiled⟩ := ih hafter
      refine ⟨after, filed, ?_, ?_, ?_⟩
      · rw [carryOn_rule, hstack]
      · rw [hitems, Node.items_addAll, Node.arrived_arrival_of_ne (hclosed ▸ htype),
          List.append_nil]
      · rw [List.forall₂_map_left_iff]
        refine hfiled.imp fun before d' hd' => ?_
        unfold Files at hd' ⊢
        rwa [carryOn_rule]

end Builder

/-! ## §3. The innermost open rule. -/

/-- Calls, split behind the opening of the innermost open rule, or at their start while only the
root is open. -/
inductive Since : List Event → List Event → List Event → Prop
  | root {run : List Event} {own : List Token} : Balanced run own → Since run [] run
  | rule {k : Nat} {outer run : List Event} {own : List Token} (type : RuleType)
      (spare : Option Token) :
      LeavesOpen k outer → Balanced run own →
      Since (outer ++ .opening type spare :: run) (outer ++ [.opening type spare]) run

/-- Whether an answer is the first of the documents closed at the given places. -/
inductive FirstFiled (b : Builder) : List (List Event) → Option Document → Prop
  | none : FirstFiled b [] none
  | some {before : List Event} {later : List (List Event)} {d : Document} :
      b.Files before d → FirstFiled b (before :: later) (some d)

theorem LeavesOpen.exists_since {k : Nat} {calls : List Event} (h : LeavesOpen k calls) :
    ∃ earlier run ends, Since calls earlier run ∧ DocumentsIn run ends := by
  cases h with
  | none hrun =>
      obtain ⟨ends, hends⟩ := hrun.exists_documentsIn
      exact ⟨[], calls, ends, .root hrun, hends⟩
  | one type spare houter hrun =>
      obtain ⟨ends, hends⟩ := hrun.exists_documentsIn
      exact ⟨_, _, ends, .rule type spare houter hrun, hends⟩

/-- The innermost open rule was empty when it was opened, and so was the root. -/
theorem Since.stack {calls earlier run : List Event} (h : Since calls earlier run) (uri : String) :
    calls = earlier ++ run
      ∧ ∃ type outer, ((Builder.new uri).carryOn earlier).stack = .empty type :: outer := by
  cases h with
  | root => exact ⟨rfl, .root, [], rfl⟩
  | @rule _ outer run _ type spare =>
      refine ⟨by rw [List.append_assoc, List.singleton_append], type,
        ((Builder.new uri).carryOn outer).stack, ?_⟩
      rw [Builder.carryOn_append]
      rfl

/-- **The answer is the first document closed directly in the innermost open rule.** -/
theorem Since.document? {calls earlier run : List Event} (h : Since calls earlier run)
    {ends : List (List Event)} (hends : DocumentsIn run ends) (uri : String) :
    ∃ answer, ((Builder.new uri).carryOn calls).document? = .ok answer
      ∧ FirstFiled ((Builder.new uri).carryOn earlier) ends answer := by
  -- the innermost node was empty, so all documents on it come from the run behind its opening
  obtain ⟨rfl, type, outer, hearlier⟩ := h.stack uri
  obtain ⟨after, filed, hstack, hitems, hfiled⟩ := Builder.carryOn_documentsIn hends hearlier
  refine ⟨filed.head?, ?_, ?_⟩
  · rw [Builder.carryOn_append]
    unfold Builder.document? Node.first?
    simp only [hstack, hitems]
    cases filed <;> rfl
  · cases hfiled with
    | nil => exact .none
    | cons hfirst _ => exact .some hfirst

/-! ## §4. Runs that stop. -/

namespace Progress

/-- An event that the full run goes on behind is a call that is carried out. -/
theorem advance_goOn {p next : Progress} {e : Event} (h : p.advance false e = .goOn next) :
    next.builder = (p.builder.handle e).2
      ∧ Event.openings [e] + p.openRules.length
        = Event.closings [e] + next.openRules.length := by
  cases e with
  | leaf t spare =>
      simp only [advance] at h
      split at h
      next b hb =>
        cases h
        refine ⟨?_, rfl⟩
        unfold Builder.handle
        simp only [hb]
      next => cases h
  | opening type spare =>
      cases h
      refine ⟨rfl, ?_⟩
      show 1 + p.openRules.length = 0 + (p.openRules.length + 1)
      omega
  | closing type spare =>
      cases hrules : p.openRules with
      | nil =>
          rw [advance_nothingOpen hrules] at h
          cases h
      | cons innermost outer =>
          by_cases htype : innermost = type
          · subst htype
            rw [advance_closing hrules] at h
            unfold close at h
            have hcount : 0 + (outer.length + 1) = 1 + outer.length := by omega
            rcases hout : p.builder.closeRule with ⟨⟨fault⟩ | ⟨v⟩, b⟩
            · rw [hout] at h
              -- only a ragged table lets the full run go on
              cases fault with
              | ragged table =>
                  cases h
                  exact ⟨(congrArg Prod.snd hout).symm, hcount⟩
              | rejected | underflow => cases h
            · rw [hout] at h
              cases h
              exact ⟨(congrArg Prod.snd hout).symm, hcount⟩
          · rw [advance_mismatch hrules htype] at h
            cases h

/-- **The full run carries its events out**, and closes no more rules than it has opened. -/
theorem through_carryOn {events : List Event} {p q : Progress} (h : p.through events = some q) :
    q.builder = p.builder.carryOn events
      ∧ Event.openings events + p.openRules.length
        = Event.closings events + q.openRules.length := by
  induction events generalizing p with
  | nil =>
      cases h
      exact ⟨rfl, rfl⟩
  | cons e rest ih =>
      obtain ⟨next, hnext, hrest⟩ := through_cons_iff.1 h
      obtain ⟨hbuilder, hcount⟩ := advance_goOn hnext
      obtain ⟨hcarried, hcounts⟩ := ih hrest
      rw [← List.singleton_append, Event.openings_append, Event.closings_append,
        Builder.carryOn_append, hcarried, hbuilder]
      exact ⟨rfl, by omega⟩

theorem neverClosesRoot_of_through {b : Builder} {events : List Event} {q : Progress}
    (h : (start b).through events = some q) : NeverClosesRoot events := by
  rintro before ⟨after, rfl⟩
  rw [through_append] at h
  obtain ⟨p, hp, -⟩ := Option.bind_eq_some_iff.1 h
  have hcount := (through_carryOn hp).2
  replace hcount : Event.openings before + 0 = Event.closings before + p.openRules.length := hcount
  omega

end Progress

/-! ## §5. The answer in all states. -/

instance (calls : List Event) : Decidable (NeverClosesRoot calls) :=
  decidable_of_iff (∀ before ∈ calls.inits, Event.closings before ≤ Event.openings before)
    (by simp only [NeverClosesRoot, List.mem_inits])

/-- **A builder gives the first document closed directly in its innermost open rule.**  Once all
rules are closed, that is the first document closed at root level.  A run that stops has the first
document closed directly in the rule around its ragged table. -/
theorem document_of_innermost_rule (uri : String) :
    (∀ calls, NeverClosesRoot calls →
        (∃ earlier run ends, Since calls earlier run ∧ DocumentsIn run ends)
          ∧ ∀ earlier run ends, Since calls earlier run → DocumentsIn run ends →
            ∃ answer, ((Builder.new uri).carryOn calls).document? = .ok answer
              ∧ FirstFiled ((Builder.new uri).carryOn earlier) ends answer)
      ∧ (∀ calls, NeverClosesRoot calls → Event.openings calls = Event.closings calls →
        ∃ ends answer, DocumentsIn calls ends
          ∧ ((Builder.new uri).carryOn calls).document? = .ok answer
          ∧ FirstFiled (Builder.new uri) ends answer)
      ∧ ∀ before e q table, (Progress.start (Builder.new uri)).FirstReport before e q table →
        NeverClosesRoot (before ++ [e])
          ∧ ∀ earlier run ends, Since (before ++ [e]) earlier run → DocumentsIn run ends →
            ∃ answer, FirstFiled ((Builder.new uri).carryOn earlier) ends answer
              ∧ ∀ after, (Run.ofEvents uri true (before ++ e :: after)).outcome
                = .ok ⟨answer, [table]⟩ := by
  refine ⟨fun calls h => ⟨?_, fun earlier run ends hsince hends => hsince.document? hends uri⟩,
    fun calls h hclosed => ?_, fun before e q table h => ?_⟩
  · obtain ⟨k, hopen, -⟩ := h.leavesOpen
    exact hopen.exists_since
  · obtain ⟨k, hopen, hcount⟩ := h.leavesOpen
    obtain rfl : k = 0 := by omega
    cases hopen with
    | none hrun =>
        obtain ⟨ends, hends⟩ := hrun.exists_documentsIn
        obtain ⟨answer, hanswer⟩ := (Since.root hrun).document? hends uri
        exact ⟨ends, answer, hends, hanswer⟩
  · obtain ⟨next, document, hthrough, herrors, hdocument, hdrive⟩ :=
      h.drive (Progress.inStep_start _)
    refine ⟨Progress.neverClosesRoot_of_through hthrough, ?_⟩
    intro earlier run ends hsince hends
    obtain ⟨answer, hanswer, hfirst⟩ := hsince.document? hends uri
    refine ⟨answer, hfirst, fun after => ?_⟩
    -- the run that stops reads its document off the builder of the full run
    have hbuilder : next.builder = (Builder.new uri).carryOn (before ++ [e]) :=
      (Progress.through_carryOn hthrough).1
    rw [hbuilder, hanswer] at hdocument
    cases hdocument
    unfold Run.ofEvents Builder.run
    rw [hdrive, herrors]
    rfl

/-- A document closed at root level. -/
def emptyDocument : List Event := [.opening .gherkinDocument none, .closing .gherkinDocument none]

/-- The answer is not always the first document on the root: an open rule hides it. -/
theorem document_not_of_root :
    ¬ ∀ calls, NeverClosesRoot calls →
      ∀ root ∈ ((Builder.new "a.feature").carryOn calls).stack.getLast?,
        ((Builder.new "a.feature").carryOn calls).document?
          = .ok ((root.first? .gherkinDocument).bind Value.document?) := by
  intro h
  cases h (emptyDocument ++ [.opening .feature none]) (by decide) _ rfl

/-- Events that close nothing report nothing. -/
theorem Progress.silent_of_not_closing {p : Progress} {events : List Event}
    (h : ∀ e ∈ events, ∀ type spare, e ≠ .closing type spare) : p.Silent events := by
  intro before e after q table hsplit _ hreports
  have he : e ∈ events := hsplit ▸ List.mem_append_right before List.mem_cons_self
  cases hreports with
  | closing spare => exact h _ he _ _ rfl

/-- Two rows, the second of which is too short. -/
def shortRows : List Event :=
  [ .leaf { type := .tableRow, location := ⟨2, 1⟩, items := [⟨3, "a"⟩, ⟨7, "b"⟩] } none,
    .leaf { type := .tableRow, location := ⟨3, 1⟩, items := [⟨3, "c"⟩] } none ]

/-- A document, and behind it a step with these rows in its table. -/
def shortStep : List Event :=
  emptyDocument ++ .opening .step none :: .opening .dataTable none :: shortRows

/-- The end of the table is the first report. -/
theorem shortStep_firstReport :
    ∃ q table, (Progress.start (Builder.new "a.feature")).FirstReport shortStep
      (.closing .dataTable none) q table := by
  refine ⟨_, _, ?_, rfl, .closing none rfl rfl⟩
  refine Progress.silent_cons_iff.2 ⟨nofun, ?_⟩
  rintro next ⟨⟩
  refine Progress.silent_cons_iff.2 ⟨?_, ?_⟩
  · rintro table ⟨-, -, hclosed⟩
    cases hclosed
  · rintro next ⟨⟩
    exact Progress.silent_of_not_closing (by simp [shortRows])

theorem document_shortStep :
    (∃ d : Document, ((Builder.new "a.feature").carryOn emptyDocument).document? = .ok (some d))
      ∧ NeverClosesRoot (emptyDocument ++ [.opening .feature none])
      ∧ ((Builder.new "a.feature").carryOn (emptyDocument ++ [.opening .feature none])).document?
        = .ok none
      ∧ ∃ table, ∀ after,
        (Run.ofEvents "a.feature" true (shortStep ++ .closing .dataTable none :: after)).outcome
          = .ok ⟨none, [table]⟩ := by
  have hempty : Balanced emptyDocument [] := .rule _ _ _ _ .nil .nil
  have hdocument : DocumentsIn emptyDocument [[.opening .gherkinDocument none]] :=
    .document .gherkinDocument none none .nil .nil
  obtain ⟨hanswers, -, hstops⟩ := document_of_innermost_rule "a.feature"
  refine ⟨?_, by decide, ?_, ?_⟩
  · obtain ⟨answer, hanswer, hfirst⟩ :=
      (hanswers emptyDocument (by decide)).2 _ _ _ (.root hempty) hdocument
    cases hfirst with
    | @some _ _ d _ => exact ⟨d, hanswer⟩
  · -- nothing has been closed in the feature
    obtain ⟨answer, hanswer, hfirst⟩ := (hanswers (emptyDocument ++ [.opening .feature none])
      (by decide)).2 _ _ _ (.rule .feature none (.none hempty) .nil) .nil
    cases hfirst
    exact hanswer
  · obtain ⟨q, table, hreport⟩ := shortStep_firstReport
    have hrows : Balanced shortRows _ := .leaf _ none (.leaf _ none .nil)
    obtain ⟨answer, hfirst, hrun⟩ := (hstops _ _ _ _ hreport).2 _ _ _
      (.rule .step none (.none hempty) (.rule .dataTable .dataTable none none hrows .nil))
      (.other .dataTable none none nofun hrows .nil)
    cases hfirst
    exact ⟨table, hrun⟩

end Gherkin
