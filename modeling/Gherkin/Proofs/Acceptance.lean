/-
  Gherkin.Proofs.Acceptance
  ─────────────────────────
  **A RUN SUCCEEDS EXACTLY ON NESTED STREAMS.**

  Between two events of a run, the nodes on the stack are those of the open
  rules above the root, and every value in them is of the kind that its
  category promises (`Progress.Sound`).  So no operation finds the stack too
  short and nothing is ever refused:

    • `Progress.Sound.advance` — one event ends as in a pass over rule types,
    • `Progress.Sound.drive`   — and so does the whole run,
    • `run_ok_iff_nested`      — a run has a result exactly on nested streams,
      and fails otherwise for the first imbalance and for nothing else.
-/
import Gherkin.Proofs.Promise
import Gherkin.Proofs.Reached

namespace Gherkin

/-! ## §1. Between two events. -/

/-- Whether the columns of a token event fit. -/
def Event.Fits : Event → Prop
  | .leaf token _ => token.Fits
  | _ => True

instance (e : Event) : Decidable e.Fits := by
  unfold Event.Fits
  split <;> infer_instance

theorem Event.fits_of_isBracket {e : Event} (h : e.isBracket) : e.Fits := by
  cases e with
  | leaf token spare => cases h
  | opening type spare => trivial
  | closing type spare => trivial

/-- What holds between two events of a run over tokens whose columns fit. -/
structure Progress.Sound (p : Progress) : Prop where
  types : p.builder.stack.map Node.type = p.openRules ++ [.root]
  promised : ∀ n ∈ p.builder.stack, n.Promised Token.Fits

namespace Progress

theorem sound_start (b : Builder) : (start b).Sound where
  types := rfl
  promised := by
    intro n hn
    rw [List.mem_singleton.1 hn]
    exact Node.promised_empty .root

/-! ## §2. One event. -/

/-- **One event ends as in a pass over rule types**: the run goes on soundly with the rules that
are open then, or it fails because of the imbalance. -/
theorem Sound.advance {p : Progress} (h : p.Sound) {e : Event} (he : e.Fits) :
    match e.nest p.openRules with
    | .ok rules => ∃ next, p.advance false e = .goOn next ∧ next.openRules = rules ∧ next.Sound
    | .error i => p.advance false e = .fail (.unbalanced i) p := by
  cases e with
  | leaf token spare =>
      obtain ⟨n, outer, hstack⟩ := InStep.innermost h.types
      refine ⟨_, advance_leaf hstack false token spare, rfl, ?_⟩
      have htypes := h.types
      have hpromised := h.promised
      rw [hstack] at htypes hpromised
      obtain ⟨hn, houter⟩ := List.forall_mem_cons.1 hpromised
      refine ⟨?_, List.forall_mem_cons.2 ⟨hn.addAll (Token.arrival_promised he), houter⟩⟩
      show (n.addAll token.arrival).type :: outer.map Node.type = _
      rw [Node.type_addAll]
      exact htypes
  | opening type spare =>
      refine ⟨_, advance_opening p false type spare, rfl, ?_⟩
      exact ⟨congrArg (type :: ·) h.types,
        List.forall_mem_cons.2 ⟨Node.promised_empty type, h.promised⟩⟩
  | closing type spare =>
      cases hrules : p.openRules with
      | nil => exact advance_nothingOpen hrules false type spare
      | cons innermost rules =>
          rw [Event.nest_closing]
          by_cases htype : innermost = type
          · subst htype
            rw [if_pos rfl]
            obtain ⟨n, m, outer, hstack, -, htypes⟩ := InStep.twoInnermost h.types hrules
            have hpromised := h.promised
            rw [hstack] at hpromised
            -- the node that closes keeps the promise, so nothing of it is refused
            obtain ⟨hn, hbelow⟩ := List.forall_mem_cons.1 hpromised
            obtain ⟨hm, houter⟩ := List.forall_mem_cons.1 hbelow
            have hclose := close_eq hstack
              (hn.not_rejected p.builder.documentUri p.builder.comments) innermost rules
            refine ⟨_, (advance_closing hrules false spare).trans hclose, rfl, ?_, ?_⟩
            · show (m.addAll _).type :: outer.map Node.type = _
              rw [Node.type_addAll]
              exact htypes
            · exact List.forall_mem_cons.2 ⟨hm.addAll (hn.arrival _), houter⟩
          · rw [if_neg htype]
            exact advance_mismatch hrules htype false spare

/-! ## §3. Whole runs. -/

/-- A sound run that is over has a result. -/
theorem Sound.finish {p : Progress} (h : p.Sound) : ∃ build, p.finish.outcome = .ok build := by
  obtain ⟨n, outer, hstack⟩ := InStep.innermost h.types
  unfold Progress.finish Builder.document?
  rw [hstack]
  exact ⟨_, rfl⟩

/-- **A run ends as the pass over its rule types does.** -/
theorem Sound.drive {events : List Event} (he : ∀ e ∈ events, e.Fits) {p : Progress}
    (h : p.Sound) :
    match Event.imbalance? p.openRules events with
    | none => ∃ build, (p.drive false events).outcome = .ok build
    | some i => (p.drive false events).outcome = .error (.unbalanced i) := by
  induction events generalizing p with
  | nil =>
      unfold Event.imbalance? Event.nestAll Progress.drive
      cases p.openRules with
      | nil => exact h.finish
      | cons innermost outer => rfl
  | cons e rest ih =>
      have hstep := h.advance (he e List.mem_cons_self)
      unfold Event.imbalance? Event.nestAll
      cases hnest : e.nest p.openRules with
      | error i =>
          rw [hnest] at hstep
          rw [drive_fail hstep]
          rfl
      | ok rules =>
          rw [hnest] at hstep
          obtain ⟨next, hnext, rfl, hsound⟩ := hstep
          rw [drive_goOn hnext]
          exact ih (fun e' he' => he e' (List.mem_cons_of_mem _ he')) hsound

end Progress

/-- The outcome of a run from the first imbalance of its stream, if there is one. -/
theorem Builder.run_imbalance? (b : Builder) {events : List Event} (he : ∀ e ∈ events, e.Fits) :
    match Event.imbalance? [] events with
    | none => ∃ build, (b.run false events).outcome = .ok build
    | some i => (b.run false events).outcome = .error (.unbalanced i) :=
  (Progress.sound_start b).drive he

/-- A run fails for an imbalance exactly if it is the first one of the stream. -/
theorem Builder.run_unbalanced_iff (b : Builder) {events : List Event}
    (he : ∀ e ∈ events, e.Fits) {i : Imbalance} :
    (b.run false events).outcome = .error (.unbalanced i) ↔ FirstImbalance events i := by
  rw [← Event.imbalance?_eq_some_iff]
  have hrun := b.run_imbalance? he
  cases hfirst : Event.imbalance? [] events with
  | none =>
      rw [hfirst] at hrun
      obtain ⟨build, hbuild⟩ := hrun
      rw [hbuild]
      exact ⟨nofun, nofun⟩
  | some j =>
      rw [hfirst] at hrun
      rw [hrun]
      constructor
      · intro h
        cases h
        rfl
      · intro h
        cases h
        rfl

/-- **A run has a result exactly on nested streams.**  On any other stream it fails for the first
imbalance, whose message names the rules involved, and for nothing else; the tokens, ragged tables
included, have no say in it. -/
theorem run_ok_iff_nested (b : Builder) (events : List Event) (he : ∀ e ∈ events, e.Fits) :
    ((∃ build, (b.run false events).outcome = .ok build) ↔ Nested events)
      ∧ (∀ fault, (b.run false events).outcome = .error fault ↔
          ∃ i, fault = .unbalanced i ∧ FirstImbalance events i)
      ∧ (∀ i, (b.run false events).outcome = .error (.unbalanced i) ↔
          (b.run false (events.filter Event.isBracket)).outcome = .error (.unbalanced i))
      ∧ (∀ closed innermost : RuleType,
          (Imbalance.nothingOpen closed).message
              = "Unbalanced event stream: " ++
                ("'" ++ closed.name ++ "' closed while no rule is open")
            ∧ (Imbalance.mismatch closed innermost).message
              = "Unbalanced event stream: " ++
                ("'" ++ closed.name ++ "' closed while '" ++ innermost.name ++ "' is open")
            ∧ (Imbalance.neverClosed innermost).message
              = "Unbalanced event stream: " ++
                ("'" ++ innermost.name ++ "' was never closed")) := by
  have hrun := b.run_imbalance? he
  refine ⟨?_, ?_, ?_, fun _ _ => ⟨rfl, rfl, rfl⟩⟩
  · rw [← Event.imbalance?_eq_none_iff]
    cases hfirst : Event.imbalance? [] events with
    | none =>
        rw [hfirst] at hrun
        exact ⟨fun _ => rfl, fun _ => hrun⟩
    | some i =>
        rw [hfirst] at hrun
        rw [hrun]
        exact ⟨nofun, nofun⟩
  · intro fault
    constructor
    · intro h
      cases hfirst : Event.imbalance? [] events with
      | none =>
          rw [hfirst] at hrun
          obtain ⟨build, hbuild⟩ := hrun
          rw [hbuild] at h
          cases h
      | some i =>
          rw [hfirst] at hrun
          rw [hrun] at h
          cases h
          exact ⟨i, rfl, Event.imbalance?_eq_some_iff.1 hfirst⟩
    · rintro ⟨i, rfl, hi⟩
      exact (b.run_unbalanced_iff he).2 hi
  · intro i
    have hbrackets : ∀ e ∈ events.filter Event.isBracket, e.Fits :=
      fun e he => Event.fits_of_isBracket (List.mem_filter.1 he).2
    rw [b.run_unbalanced_iff he, b.run_unbalanced_iff hbrackets, ← Event.imbalance?_eq_some_iff,
      ← Event.imbalance?_eq_some_iff, Event.imbalance?_filter]

/-- A step with a ragged table; then a rule closes inside the feature. -/
def misnestedEvents : List Event :=
  [ .opening .feature none,
    .opening .step none,
    .opening .dataTable none,
    .leaf { type := .tableRow, location := ⟨1, 1⟩, items := [⟨3, "a"⟩, ⟨7, "b"⟩] } none,
    .leaf { type := .tableRow, location := ⟨2, 1⟩, items := [⟨3, "c"⟩] } none,
    .closing .dataTable none,
    .closing .step none,
    .closing .rule none,
    .closing .feature none ]

theorem run_misnestedEvents :
    (∀ e ∈ misnestedEvents, e.Fits)
      ∧ (Run.ofEvents "" false misnestedEvents).outcome
          = .error (.unbalanced (.mismatch .rule .feature))
      ∧ (Imbalance.mismatch .rule .feature).message
          = "Unbalanced event stream: 'Rule' closed while 'Feature' is open" := by
  have hfits : ∀ e ∈ misnestedEvents, e.Fits := by decide
  obtain ⟨-, hfault, -, hmessages⟩ := run_ok_iff_nested (Builder.new "") misnestedEvents hfits
  refine ⟨hfits, ?_, ?_⟩
  · exact (hfault _).2 ⟨_, rfl, Event.imbalance?_eq_some_iff.1 rfl⟩
  · exact (hmessages .rule .feature).2.1

end Gherkin
