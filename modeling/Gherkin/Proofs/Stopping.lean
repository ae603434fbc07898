/-
  Gherkin.Proofs.Stopping
  ───────────────────────
  **STOPPING AT THE FIRST RAGGED TABLE.**

  A run that is told to stop does what the full run does until a closing
  reports a ragged table; there it ends, and nothing that follows in the
  stream can change its result.

    • `Progress.through`      — where the full run is after some events,
    • `Progress.Reports`, `Progress.Silent` — an event that reports a ragged
      table, and events none of which does,
    • `Progress.Silent.drive` — over silent events both runs are one,
    • `stopping_cuts_at_first_report` — so the run that stops is the full run,
      cut right after its first report.

  Later events may fail to nest, or be rejected when their rules close.  The
  full run ends with that fault, while the other one has ended long before.
-/
import Gherkin.Proofs.Reached

namespace Gherkin

namespace Progress

/-! ## §1. The full run. -/

/-- Where a run that nothing stops is after some events, unless one of them has ended it. -/
def through (p : Progress) : List Event → Option Progress
  | [] => some p
  | e :: rest => (p.advance false e).next?.bind fun next => next.through rest

/-- An event closes a ragged table, which the run reports. -/
inductive Reports (p : Progress) : Event → RaggedTable → Prop
  | closing {type : RuleType} {outer : List RuleType} {table : RaggedTable} (spare : Option Token)
      (hrules : p.openRules = type :: outer)
      (hclosed : p.builder.closeRule.1 = .error (.ragged table)) :
      Reports p (.closing type spare) table

/-- None of the events that the full run gets to closes a ragged table. -/
def Silent (p : Progress) (events : List Event) : Prop :=
  ∀ before e after q table, events = before ++ e :: after → p.through before = some q →
    ¬ q.Reports e table

/-- The first event at which the full run reports a ragged table, and where the run is then. -/
structure FirstReport (p : Progress) (before : List Event) (e : Event) (q : Progress)
    (table : RaggedTable) : Prop where
  silent : p.Silent before
  reached : p.through before = some q
  reports : q.Reports e table

theorem through_cons_iff {p q : Progress} {e : Event} {rest : List Event} :
    p.through (e :: rest) = some q
      ↔ ∃ next, p.advance false e = .goOn next ∧ next.through rest = some q := by
  show (p.advance false e).next?.bind (fun next => next.through rest) = some q ↔ _
  cases hout : p.advance false e with
  | goOn next =>
      constructor
      · exact fun h => ⟨next, rfl, h⟩
      · rintro ⟨next', ⟨⟩, h⟩
        exact h
  | stop next => exact absurd hout (advance_ne_stop p next e)
  | fail fault next => exact ⟨nofun, nofun⟩

theorem through_append (p : Progress) (before later : List Event) :
    p.through (before ++ later) = (p.through before).bind fun q => q.through later := by
  induction before generalizing p with
  | nil => rfl
  | cons e rest ih =>
      show (p.advance false e).next?.bind (fun next => next.through (rest ++ later))
        = ((p.advance false e).next?.bind fun next => next.through rest).bind _
      rw [Option.bind_assoc]
      exact congrArg _ (funext ih)

/-- The full run goes on behind some events from where it is after them. -/
theorem drive_through {before : List Event} {p q : Progress} (h : p.through before = some q)
    (rest : List Event) : p.drive false (before ++ rest) = q.drive false rest := by
  induction before generalizing p with
  | nil =>
      cases h
      rfl
  | cons e later ih =>
      obtain ⟨next, hnext, hlater⟩ := through_cons_iff.1 h
      rw [List.cons_append, drive_goOn hnext, ih hlater]

/-- Stack and open rules stay in step. -/
theorem InStep.through {before : List Event} {p q : Progress} (hp : p.InStep)
    (h : p.through before = some q) : q.InStep := by
  induction before generalizing p with
  | nil =>
      cases h
      exact hp
  | cons e later ih =>
      obtain ⟨next, hnext, hlater⟩ := through_cons_iff.1 h
      have hsome : (p.advance false e).next? = some next := congrArg Advance.next? hnext
      exact ih (hp.next hsome) hlater

theorem Moves.errors {p next : Progress} {e : Event} (h : p.Moves e next) :
    p.errors <+: next.errors := by
  cases h with
  | leaf t spare hstack => exact List.prefix_refl _
  | opening type spare => exact List.prefix_refl _
  | closing spare hstack hrules hfiled => exact List.prefix_append _ _

/-- The full run never forgets a table that it has reported. -/
theorem errors_prefix {events : List Event} {p : Progress} {build : Build} (hp : p.InStep)
    (h : (p.drive false events).outcome = .ok build) : p.errors <+: build.errors := by
  induction events generalizing p with
  | nil =>
      unfold drive at h
      cases hrules : p.openRules with
      | nil =>
          obtain ⟨n, outer, hstack⟩ := hp.innermost
          rw [hrules, finish_eq hstack] at h
          cases h
          exact List.prefix_refl _
      | cons innermost outer =>
          rw [hrules] at h
          cases h
  | cons e rest ih =>
      cases hout : p.advance false e with
      | goOn next =>
          have hmoves : p.Moves e next := hp.moves (congrArg Advance.next? hout)
          rw [drive_goOn hout] at h
          exact hmoves.errors.trans (ih (hmoves.inStep hp) h)
      | stop next => exact absurd hout (advance_ne_stop p next e)
      | fail fault next =>
          rw [drive_fail hout] at h
          cases h

/-! ## §2. One event in both runs. -/

variable {p q : Progress} {e : Event} {table : RaggedTable}

/-- At a report the full run goes on and the other one stops, both in the same state. -/
theorem Reports.advance (h : p.Reports e table) :
    ∃ next, p.advance false e = .goOn next ∧ p.advance true e = .stop next
      ∧ next.errors = p.errors ++ [table] := by
  cases h with
  | @closing type outer _ spare hrules hclosed =>
      rw [advance_closing hrules, advance_closing hrules]
      unfold close
      rcases hout : p.builder.closeRule with ⟨verdict, b⟩
      rw [hout] at hclosed
      obtain rfl : verdict = .error (.ragged table) := hclosed
      exact ⟨_, rfl, rfl, rfl⟩

/-- Without a report both runs do the same, and the tables reported so far stay as they are. -/
theorem advance_of_not_reports (h : ∀ table, ¬ p.Reports e table) :
    p.advance true e = p.advance false e
      ∧ ∀ next, p.advance false e = .goOn next → next.errors = p.errors := by
  cases e with
  | leaf t spare =>
      refine ⟨rfl, ?_⟩
      intro next hnext
      simp only [advance] at hnext
      split at hnext <;> cases hnext
      rfl
  | opening type spare =>
      refine ⟨rfl, ?_⟩
      rintro next ⟨⟩
      rfl
  | closing type spare =>
      cases hrules : p.openRules with
      | nil =>
          rw [advance_nothingOpen hrules, advance_nothingOpen hrules]
          exact ⟨rfl, nofun⟩
      | cons innermost outer =>
          by_cases htype : innermost = type
          · subst htype
            rw [advance_closing hrules, advance_closing hrules]
            unfold close
            rcases hout : p.builder.closeRule with ⟨verdict, b⟩
            match verdict with
            | .ok v =>
                refine ⟨rfl, ?_⟩
                rintro next ⟨⟩
                rfl
            | .error (.ragged table) =>
                exact absurd (.closing spare hrules (congrArg Prod.fst hout)) (h table)
            | .error (.rejected r) => exact ⟨rfl, nofun⟩
            | .error (.underflow cause) => exact ⟨rfl, nofun⟩
          · rw [advance_mismatch hrules htype, advance_mismatch hrules htype]
            exact ⟨rfl, nofun⟩

/-! ## §3. Silent events. -/

/-- Events are silent if the first one is, and the others are where it leads to. -/
theorem silent_cons_iff {rest : List Event} :
    p.Silent (e :: rest) ↔ (∀ table, ¬ p.Reports e table)
      ∧ ∀ next, p.advance false e = .goOn next → next.Silent rest := by
  constructor
  · intro h
    refine ⟨fun table => h [] e rest p table rfl rfl, ?_⟩
    intro next hnext before e' after q table hrest hq
    exact h (e :: before) e' after q table (congrArg (e :: ·) hrest)
      (through_cons_iff.2 ⟨next, hnext, hq⟩)
  · rintro ⟨hhead, htail⟩ before e' after q table hsplit hq
    cases before with
    | nil =>
        cases hsplit
        cases hq
        exact hhead table
    | cons e₀ earlier =>
        obtain ⟨rfl, hrest⟩ := List.cons.inj hsplit
        obtain ⟨next, hnext, hearlier⟩ := through_cons_iff.1 hq
        exact htail next hnext earlier e' after q table hrest hearlier

theorem silent_nil (p : Progress) : p.Silent [] := by
  intro before e after q table hsplit
  exact absurd hsplit.symm (by simp)

/-- **Over silent events both runs are one.** -/
theorem Silent.drive {events : List Event} (h : p.Silent events) :
    p.drive true events = p.drive false events := by
  induction events generalizing p with
  | nil => rfl
  | cons e rest ih =>
      obtain ⟨hhead, htail⟩ := silent_cons_iff.1 h
      have hsame := (advance_of_not_reports hhead).1
      cases hout : p.advance false e with
      | goOn next => rw [drive_goOn hout, drive_goOn (hsame.trans hout), ih (htail next hout)]
      | stop next => exact absurd hout (advance_ne_stop p next e)
      | fail fault next => rw [drive_fail hout, drive_fail (hsame.trans hout)]

/-- Behind silent events the run that stops goes on from where the full run is, and neither has
reported anything there. -/
theorem Silent.through {before : List Event} (h : p.Silent before)
    (hq : p.through before = some q) :
    (∀ rest, p.drive true (before ++ rest) = q.drive true rest) ∧ q.errors = p.errors := by
  induction before generalizing p with
  | nil =>
      cases hq
      exact ⟨fun _ => rfl, rfl⟩
  | cons e later ih =>
      obtain ⟨hhead, htail⟩ := silent_cons_iff.1 h
      obtain ⟨hsame, herrors⟩ := advance_of_not_reports hhead
      obtain ⟨next, hnext, hlater⟩ := through_cons_iff.1 hq
      obtain ⟨hdrive, hsilent⟩ := ih (htail next hnext) hlater
      refine ⟨?_, hsilent.trans (herrors next hnext)⟩
      intro rest
      rw [List.cons_append, drive_goOn (hsame.trans hnext), hdrive]

/-- Events that are not silent have a first report. -/
theorem exists_firstReport {events : List Event} (h : ¬ p.Silent events) :
    ∃ before e after q table, events = before ++ e :: after ∧ p.FirstReport before e q table := by
  induction events generalizing p with
  | nil => exact absurd p.silent_nil h
  | cons e rest ih =>
      by_cases hhead : ∃ table, p.Reports e table
      · obtain ⟨table, hreports⟩ := hhead
        exact ⟨[], e, rest, p, table, rfl, p.silent_nil, rfl, hreports⟩
      · -- nothing is reported here, so the report is behind, where the run gets to
        rw [not_exists] at hhead
        rw [silent_cons_iff] at h
        push Not at h
        obtain ⟨next, hnext, hrest⟩ := h hhead
        obtain ⟨before, e', after, q, table, rfl, hsilent, hreached, hreports⟩ := ih hrest
        refine ⟨e :: before, e', after, q, table, rfl, ?_, ?_, hreports⟩
        · refine silent_cons_iff.2 ⟨hhead, ?_⟩
          intro next' hnext'
          rw [hnext] at hnext'
          cases hnext'
          exact hsilent
        · exact through_cons_iff.2 ⟨next, hnext, hreached⟩

/-- **At the first report** the run that stops has its result, whatever follows in the stream. -/
theorem FirstReport.drive {before : List Event} (h : p.FirstReport before e q table)
    (hp : p.InStep) :
    ∃ next document, p.through (before ++ [e]) = some next
      ∧ next.errors = p.errors ++ [table]
      ∧ next.builder.document? = .ok document
      ∧ ∀ later, p.drive true (before ++ e :: later)
          = ⟨.ok ⟨document, next.errors⟩, next.log, next.builder⟩ := by
  obtain ⟨next, hgoOn, hstop, herrors⟩ := h.reports.advance
  obtain ⟨hdrive, hsilent⟩ := h.silent.through h.reached
  have hthrough : p.through (before ++ [e]) = some next := by
    rw [through_append, h.reached]
    exact through_cons_iff.2 ⟨next, hgoOn, rfl⟩
  -- the run that stops reads its document off the state in which the full run goes on
  obtain ⟨n, outer, hstack⟩ := (hp.through hthrough).innermost
  refine ⟨next, (n.first? .gherkinDocument).bind Value.document?, hthrough, ?_, ?_, ?_⟩
  · rw [herrors, hsilent]
  · unfold Builder.document?
    simp only [hstack]
  · intro later
    rw [hdrive, drive_stop hstop, finish_eq hstack]

end Progress

/-! ## §4. The two runs of a builder. -/

/-- **The run that stops is the full run, cut at its first report.**  Without a report the two runs
are the same.  Otherwise the run that stops has a result with the one table that is reported first,
is left in the state of the full run right after that, and does not depend on what follows. -/
theorem stopping_cuts_at_first_report (b : Builder) (events : List Event) :
    ((Progress.start b).Silent events → b.run true events = b.run false events)
      ∧ (¬ (Progress.start b).Silent events → ∃ before e after p table next document,
          events = before ++ e :: after
            ∧ (Progress.start b).FirstReport before e p table
            ∧ (Progress.start b).through (before ++ [e]) = some next
            ∧ next.errors = [table]
            ∧ next.builder.document? = .ok document
            ∧ b.run true events = ⟨.ok ⟨document, [table]⟩, next.log, next.builder⟩
            ∧ (∀ build, (b.run false events).outcome = .ok build →
                build.errors.head? = some table)
            ∧ ∀ later, b.run true (before ++ e :: later) = b.run true events) := by
  refine ⟨Progress.Silent.drive, ?_⟩
  intro hreports
  obtain ⟨before, e, after, p, table, rfl, hfirst⟩ := Progress.exists_firstReport hreports
  obtain ⟨next, document, hthrough, herrors, hdocument, hrun⟩ :=
    hfirst.drive (Progress.inStep_start b)
  refine ⟨before, e, after, p, table, next, document, rfl, hfirst, hthrough, herrors, hdocument,
    ?_, ?_, ?_⟩
  · have hone : next.errors = [table] := herrors
    rw [← hone]
    exact hrun after
  · intro build hbuild
    have hfull : b.run false (before ++ e :: after) = next.drive false after := by
      rw [← List.singleton_append, ← List.append_assoc]
      exact Progress.drive_through hthrough after
    rw [hfull] at hbuild
    obtain ⟨more, hmore⟩ :=
      Progress.errors_prefix ((Progress.inStep_start b).through hthrough) hbuild
    rw [← hmore, herrors]
    rfl
  · intro later
    exact (hrun later).trans (hrun after).symm

/-- A ragged table, and behind it a rule that closes while another one is open. -/
def brokenEvents : List Event :=
  [ .opening .step none,
    .opening .dataTable none,
    .leaf { type := .tableRow, location := ⟨1, 3⟩, items := [⟨5, "a"⟩, ⟨9, "b"⟩] } none,
    .leaf { type := .tableRow, location := ⟨2, 3⟩, items := [⟨5, "c"⟩] } none,
    .closing .dataTable none,
    .closing .rule none ]

theorem stopping_brokenEvents :
    ((Builder.new "").run false brokenEvents).outcome
        = .error (.unbalanced (.mismatch .rule .step))
      ∧ ∃ before e after document table log builder, brokenEvents = before ++ e :: after
        ∧ (Builder.new "").run true brokenEvents = ⟨.ok ⟨document, [table]⟩, log, builder⟩
        ∧ ∀ later, (Builder.new "").run true (before ++ e :: later)
            = ⟨.ok ⟨document, [table]⟩, log, builder⟩ := by
  obtain ⟨hsame, hcut⟩ := stopping_cuts_at_first_report (Builder.new "") brokenEvents
  have hreports : ¬ (Progress.start (Builder.new "")).Silent brokenEvents := by
    intro hsilent
    cases congrArg Run.outcome (hsame hsilent)
  obtain ⟨before, e, after, -, table, next, document, hsplit, -, -, -, -, hrun, -, hlater⟩ :=
    hcut hreports
  exact ⟨rfl, before, e, after, document, table, next.log, next.builder, hsplit, hrun,
    fun later => (hlater later).trans hrun⟩

end Gherkin
