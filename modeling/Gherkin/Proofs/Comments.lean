/-
  Gherkin.Proofs.Comments
  ───────────────────────
  **WHICH COMMENTS A DOCUMENT HAS.**

  A builder keeps comments aside and hands all of them to every document that
  closes.  The result of a run is the first document filed on the root, so its
  comments are those read before that document closed:

    • `FirstDocument` — the events before the first document that a stream
      closes at root level,
    • `Builder.Reaches.gathered` — what a run has gathered, wherever it gets:
      the comments so far, and on the root the first document with the
      comments before its end,
    • `comments_collected_and_invisible` — so these are the comments of the
      result, and nothing else depends on a comment.
-/
import Gherkin.Proofs.RuleEffect
import Gherkin.Proofs.Uncommented

namespace Gherkin

/-! ## §1. Documents closed at root level. -/

/-- Whether a stream closes a document at root level, after the events `before`. -/
def ClosesDocument (events before : List Event) : Prop :=
  ∃ spare after, events = before ++ .closing .gherkinDocument spare :: after
    ∧ Pending [.gherkinDocument] before

/-- Whether a stream closes its first document at root level after the events `before`. -/
def FirstDocument (events before : List Event) : Prop :=
  ClosesDocument events before ∧ ∀ earlier, ¬ ClosesDocument before earlier

/-- One more event closes a document at root level or it does not. -/
theorem closesDocument_concat {seen before : List Event} {e : Event} :
    ClosesDocument (seen ++ [e]) before ↔
      ClosesDocument seen before
        ∨ (before = seen ∧ (∃ spare, e = .closing .gherkinDocument spare)
            ∧ Pending [.gherkinDocument] seen) := by
  constructor
  · rintro ⟨spare, after, hsplit, hpending⟩
    rcases List.eq_nil_or_concat after with rfl | ⟨front, last, rfl⟩
    · obtain ⟨rfl, he⟩ := List.append_inj' hsplit rfl
      cases he
      exact .inr ⟨rfl, ⟨spare, rfl⟩, hpending⟩
    · rw [List.concat_eq_append, ← List.cons_append, ← List.append_assoc] at hsplit
      obtain ⟨rfl, -⟩ := List.append_inj' hsplit rfl
      exact .inl ⟨spare, front, rfl, hpending⟩
  · rintro (⟨spare, after, rfl, hpending⟩ | ⟨rfl, ⟨spare, rfl⟩, hpending⟩)
    · exact ⟨spare, after ++ [e], by simp, hpending⟩
    · exact ⟨spare, [], rfl, hpending⟩

/-! ## §2. What a run has gathered. -/

theorem Event.comments_concat (seen : List Event) (e : Event) :
    Event.comments (seen ++ [e]) = Event.comments seen ++ Event.comments [e] :=
  List.flatMap_append

/-- The documents on the root after some events: the first of them has the comments before its
end. -/
def DocumentsFiled (seen : List Event) (documents : List Value) : Prop :=
  (documents = [] ∧ ∀ before, ¬ ClosesDocument seen before)
    ∨ ∃ before d later, documents = .element (.document d) :: later
        ∧ FirstDocument seen before ∧ d.comments = Event.comments before

/-- An event that closes no document at root level. -/
theorem DocumentsFiled.skip {seen : List Event} {documents : List Value} {e : Event}
    (h : DocumentsFiled seen documents)
    (he : (∃ spare, e = .closing .gherkinDocument spare) → ¬ Pending [.gherkinDocument] seen) :
    DocumentsFiled (seen ++ [e]) documents := by
  rcases h with ⟨rfl, hnone⟩ | ⟨before, d, later, rfl, ⟨hcloses, hfirst⟩, hcomments⟩
  · refine .inl ⟨rfl, ?_⟩
    intro before hcloses
    rcases closesDocument_concat.1 hcloses with hcloses | ⟨-, hclosing, hpending⟩
    · exact hnone before hcloses
    · exact he hclosing hpending
  · exact .inr ⟨before, d, later, rfl, ⟨closesDocument_concat.2 (.inl hcloses), hfirst⟩, hcomments⟩

/-- The end of a document at root level. -/
theorem DocumentsFiled.file {seen : List Event} {documents : List Value} {d : Document}
    (h : DocumentsFiled seen documents) (hpending : Pending [.gherkinDocument] seen)
    (hcomments : d.comments = Event.comments seen) (spare : Option Token) :
    DocumentsFiled (seen ++ [.closing .gherkinDocument spare])
      (documents ++ [.element (.document d)]) := by
  rcases h with ⟨rfl, hnone⟩ | ⟨before, d', later, rfl, ⟨hcloses, hfirst⟩, hcomments'⟩
  · exact .inr ⟨seen, d, [], rfl,
      ⟨closesDocument_concat.2 (.inr ⟨rfl, ⟨spare, rfl⟩, hpending⟩), hnone⟩, hcomments⟩
  · exact .inr ⟨before, d', later ++ [.element (.document d)], rfl,
      ⟨closesDocument_concat.2 (.inl hcloses), hfirst⟩, hcomments'⟩

/-- What a builder has gathered after some events. -/
structure Builder.Gathered (b : Builder) (seen : List Event) : Prop where
  comments : b.comments = Event.comments seen
  documents : ∀ root ∈ b.stack.getLast?, DocumentsFiled seen (root.items .gherkinDocument)

theorem Builder.gathered_reset (b : Builder) : b.reset.Gathered [] := by
  refine ⟨rfl, ?_⟩
  rintro root ⟨⟩
  refine .inl ⟨rfl, ?_⟩
  rintro before ⟨spare, after, hsplit, -⟩
  cases before <;> cases hsplit

theorem Progress.Moves.comments {p next : Progress} {e : Event} (h : p.Moves e next) :
    next.builder.comments = p.builder.comments ++ Event.comments [e] := by
  cases h with
  | leaf t spare hstack => exact congrArg (p.builder.comments ++ ·) (List.append_nil _).symm
  | opening type spare => exact (List.append_nil _).symm
  | closing spare hstack hrules hfiled => exact (List.append_nil _).symm

/-- What arrives when a document closes: itself, with the comments of its builder. -/
theorem Node.arrival_gherkinDocument {n : Node} (h : n.type = .gherkinDocument) (b : Builder) :
    ∃ d : Document, n.arrival b.source = [(.gherkinDocument, .element (.document d))]
      ∧ d.comments = b.comments :=
  ⟨_, h ▸ arrival_of_filed (filed?_of_ok (assemble_gherkinDocument h b.documentUri b.comments)),
    rfl⟩

namespace Builder

/-- Closing a rule right above the root: a document joins those on the root. -/
theorem Gathered.closeAtRoot {b : Builder} {seen : List Event} {n root : Node}
    (h : b.Gathered seen) (hstack : b.stack = [n, root]) (hpending : Pending [n.type] seen)
    (spare : Option Token) :
    DocumentsFiled (seen ++ [.closing n.type spare])
      ((root.addAll (n.arrival b.source)).items .gherkinDocument) := by
  have hroot : DocumentsFiled seen (root.items .gherkinDocument) :=
    h.documents root (by rw [hstack]; rfl)
  rw [Node.items_addAll]
  by_cases htype : n.type = .gherkinDocument
  · obtain ⟨d, harrival, hcomments⟩ := Node.arrival_gherkinDocument htype b
    rw [harrival, htype, Grouped.arrived_singleton, if_pos rfl]
    exact hroot.file (htype ▸ hpending) (hcomments.trans h.comments) spare
  · rw [Node.arrived_arrival_of_ne htype, List.append_nil]
    refine hroot.skip ?_
    rintro ⟨spare', hclosing⟩
    exact absurd (Event.closing.inj hclosing).1 htype

/-- **What a run has gathered**, wherever it gets. -/
theorem Reaches.gathered {b : Builder} {seen : List Event} {p : Progress}
    (h : b.Reaches seen p) : p.builder.Gathered seen := by
  induction h with
  | start => exact b.gathered_reset
  | @move seen p next e hreaches hmoves ih =>
      refine ⟨by rw [hmoves.comments, ih.comments, ← Event.comments_concat], ?_⟩
      have hdocuments := ih.documents
      cases hmoves with
      | @leaf n outer t spare hstack =>
          rw [hstack] at hdocuments
          intro root hroot
          cases outer with
          | nil =>
              have hne : t.category ≠ .gherkinDocument := nofun
              obtain rfl : n.addAll t.arrival = root := Option.some.inj hroot
              rw [Node.items_addAll, Token.arrived_arrival_of_ne hne, List.append_nil]
              exact (hdocuments n rfl).skip (fun ⟨_, h⟩ => nomatch h)
          | cons m inner => exact (hdocuments root hroot).skip (fun ⟨_, h⟩ => nomatch h)
      | opening type spare =>
          obtain ⟨n, outer, hstack⟩ := hreaches.inStep.innermost
          intro root hroot
          rw [stack_openRule, hstack, List.getLast?_cons_cons, ← hstack] at hroot
          exact (hdocuments root hroot).skip (fun ⟨_, h⟩ => nomatch h)
      | @closing n m inner rules v spare hstack hrules hfiled =>
          obtain ⟨_, _, _, hstack', -, hbelow⟩ := hreaches.inStep.twoInnermost hrules
          obtain ⟨rfl, rfl, rfl⟩ : n = _ ∧ m = _ ∧ inner = _ := by
            simpa using hstack.symm.trans hstack'
          have hopen := hreaches.nestAll
          rw [hrules] at hopen
          intro root hroot
          cases inner with
          | nil =>
              -- the root is next, so the closed rule was the only one open
              obtain rfl : rules = [] := by simpa using congrArg List.length hbelow
              obtain rfl : m.addAll (n.arrival p.builder.source) = root := Option.some.inj hroot
              exact ih.closeAtRoot hstack (Event.nestAll_eq_ok_iff.1 hopen) spare
          | cons below inner =>
              rw [hstack] at hdocuments
              refine (hdocuments root hroot).skip ?_
              -- another rule stays open below the closed one
              rintro - hpending
              rw [Event.nestAll_pending hpending] at hopen
              obtain rfl : [] = rules := (List.cons.inj (Except.ok.inj hopen)).2
              simpa using congrArg List.length hbelow

end Builder

/-! ## §3. The result of a run. -/

/-- The comments of the result are those before the end of the first document. -/
theorem Builder.comments_of_run {b : Builder} {events : List Event} {d : Document}
    {errors : List RaggedTable}
    (h : (b.run false events).outcome = .ok { document := some d, errors }) :
    ∃ before, FirstDocument events before ∧ d.comments = Event.comments before := by
  obtain ⟨seen, rest, p, rfl, hreaches, hfinish, ⟨rfl, hrules⟩ | hstop⟩ := run_ok h
  · rw [List.append_nil]
    -- no rule is open, so the root is the only node
    have hstep := hreaches.inStep
    unfold Progress.InStep at hstep
    rw [hrules] at hstep
    obtain ⟨root, outer, hstack, -, houter⟩ := List.map_eq_cons_iff.1 hstep
    obtain rfl := List.map_eq_nil_iff.1 houter
    rw [Progress.finish_eq hstack] at hfinish
    injection hfinish with hbuild
    injection hbuild with hdocument herrors
    have hfiled := hreaches.gathered.documents root (by rw [hstack]; rfl)
    unfold Node.first? at hdocument
    rcases hfiled with ⟨hnone, -⟩ | ⟨before, d', later, hitems, hfirst, hcomments⟩
    · rw [hnone] at hdocument
      cases hdocument
    · rw [hitems] at hdocument
      cases hdocument
      exact ⟨before, hfirst, hcomments⟩
  · cases hstop

/-- **Comments are collected and otherwise invisible.**  A stream that loses some of its comments
gives the same outcome and the same notes, up to the comments of the document.  These are all those
before the end of the first document at root level, in order. -/
theorem comments_collected_and_invisible (b : Builder) (events : List Event) :
    (∀ stop kept, CommentsDropped events kept →
        (b.run stop kept).outcome.map Build.uncommented
            = (b.run stop events).outcome.map Build.uncommented
          ∧ (b.run stop kept).log = (b.run stop events).log)
      ∧ ∀ d errors, (b.run false events).outcome = .ok { document := some d, errors } →
          ∃ before, FirstDocument events before ∧ d.comments = Event.comments before := by
  refine ⟨?_, fun d errors h => Builder.comments_of_run h⟩
  intro stop kept hdropped
  have hshown := (Progress.Alike.refl (.start b)).drive hdropped (Progress.inStep_start b) stop
  exact ⟨(congrArg Prod.fst hshown).symm, (congrArg Prod.snd hshown).symm⟩

/-- Comments before, in and after a document, and between the rows of a ragged table. -/
def commentedEvents : List Event :=
  [ .leaf { type := .comment, location := ⟨1, 1⟩, text := "# before" } none,
    .opening .gherkinDocument none,
    .opening .examplesTable none,
    .leaf { type := .tableRow, location := ⟨2, 1⟩, items := [⟨3, "a"⟩, ⟨7, "b"⟩] } none,
    .leaf { type := .comment, location := ⟨3, 1⟩, text := "# between" } none,
    .leaf { type := .tableRow, location := ⟨4, 1⟩, items := [⟨3, "c"⟩] } none,
    .closing .examplesTable none,
    .closing .gherkinDocument none,
    .leaf { type := .comment, location := ⟨5, 1⟩, text := "# after" } none ]

/-- The same stream without the first and the last of its comments. -/
def barelyCommentedEvents : List Event :=
  [ .opening .gherkinDocument none,
    .opening .examplesTable none,
    .leaf { type := .tableRow, location := ⟨2, 1⟩, items := [⟨3, "a"⟩, ⟨7, "b"⟩] } none,
    .leaf { type := .comment, location := ⟨3, 1⟩, text := "# between" } none,
    .leaf { type := .tableRow, location := ⟨4, 1⟩, items := [⟨3, "c"⟩] } none,
    .closing .examplesTable none,
    .closing .gherkinDocument none ]

theorem comments_commentedEvents :
    CommentsDropped commentedEvents barelyCommentedEvents
      ∧ ((Builder.new "a").run false barelyCommentedEvents).outcome.map Build.uncommented
          = ((Builder.new "a").run false commentedEvents).outcome.map Build.uncommented
      ∧ ∃ d errors, ((Builder.new "a").run false commentedEvents).outcome
            = .ok { document := some d, errors }
          ∧ errors.length = 1
          ∧ d.comments = [⟨⟨1, 1⟩, "# before"⟩, ⟨⟨3, 1⟩, "# between"⟩]
          ∧ ∃ before, FirstDocument commentedEvents before
              ∧ d.comments = Event.comments before := by
  have hdropped : CommentsDropped commentedEvents barelyCommentedEvents :=
    .drop _ _ rfl <| .keep _ <| .keep _ <| .keep _ <| .keep _ <| .keep _ <| .keep _ <| .keep _ <|
      .drop _ _ rfl .nil
  have hrun : ((Builder.new "a").run false commentedEvents).outcome
      = .ok { document := some _, errors := _ } := rfl
  obtain ⟨hsame, hcollected⟩ := comments_collected_and_invisible (Builder.new "a") commentedEvents
  exact ⟨hdropped, (hsame false _ hdropped).1, _, _, hrun, rfl, rfl, hcollected _ _ hrun⟩

end Gherkin
