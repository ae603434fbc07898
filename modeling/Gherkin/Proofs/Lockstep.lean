/-
  Gherkin.Proofs.Lockstep
  ───────────────────────
  **THE STACK AND THE OPEN RULES STAY IN STEP.**

  A run keeps the types of the rules that are open, and its builder keeps
  their nodes.  The two change at different points, and a closing has changed
  both even when it reports a ragged table or a rejection.  So they never
  differ:

    • `Progress.Faults`         — how an event can end a run with a fault,
    • `Progress.InStep.advance` — one event keeps stack and open rules in step,
      however its handling ends,
    • `Progress.handled`, `Progress.drive_append` — the handling of events, and
      a run cut behind any of them,
    • `Builder.Reaches.carryOn` — the builder is where its own calls lead it,
    • `Builder.run_ne_underflow` — no run finds the stack too short,
    • `stack_mirrors_open_rules` — a closing finds the node that it names above
      another one, or the run ends with the builder as it was.
-/
import Gherkin.Proofs.RuleEffect
import Gherkin.Proofs.Stopping

namespace Gherkin

/-! ## §1. Faults. -/

namespace Progress

/-- How an event can end a run with a fault: it does not nest, and nothing has changed, or the
innermost node is rejected, and is gone with its rule. -/
inductive Faults (p : Progress) : Event → StreamFault → Progress → Prop
  | refused {e : Event} {i : Imbalance} (hnest : e.nest p.openRules = .error i) :
      Faults p e (.unbalanced i) p
  | rejected {n m : Node} {inner : List Node} {rules : List RuleType} {r : Rejection}
      (spare : Option Token) (hstack : p.builder.stack = n :: m :: inner)
      (hrules : p.openRules = n.type :: rules)
      (hout : n.assemble p.builder.source = .error (.rejected r)) :
      Faults p (.closing n.type spare) (.builder (.rejected r)) (p.closed n.type n m inner rules)

variable {p next : Progress} {e : Event} {stop : Bool} {fault : StreamFault}

/-- An event that does not nest ends the run, and the run has not changed. -/
theorem advance_refused {i : Imbalance} (hnest : e.nest p.openRules = .error i) (stop : Bool) :
    p.advance stop e = .fail (.unbalanced i) p := by
  cases e with
  | leaf t spare => cases hnest
  | opening type spare => cases hnest
  | closing type spare =>
      cases hrules : p.openRules with
      | nil =>
          rw [hrules] at hnest
          cases hnest
          exact advance_nothingOpen hrules stop type spare
      | cons innermost outer =>
          rw [hrules, Event.nest_closing] at hnest
          split at hnest
          next => cases hnest
          next htype =>
            cases hnest
            exact advance_mismatch hrules htype stop spare

/-- A closing that nests names the innermost open rule. -/
theorem openRules_of_nest {type : RuleType} {spare : Option Token} {outer : List RuleType}
    (hnest : Event.nest p.openRules (.closing type spare) = .ok outer) :
    p.openRules = type :: outer := by
  cases hrules : p.openRules with
  | nil =>
      rw [hrules] at hnest
      cases hnest
  | cons innermost rules =>
      rw [hrules, Event.nest_closing] at hnest
      split at hnest
      next htype =>
        cases hnest
        rw [htype]
      next => cases hnest

/-- **No other fault ends a run** whose stack and open rules are in step. -/
theorem InStep.faults (h : p.InStep) (hfail : p.advance stop e = .fail fault next) :
    p.Faults e fault next := by
  cases hnest : e.nest p.openRules with
  | error i =>
      rw [advance_refused hnest] at hfail
      cases hfail
      exact .refused hnest
  | ok outer =>
      cases e with
      | leaf t spare =>
          obtain ⟨n, outer', hstack⟩ := h.innermost
          rw [advance_leaf hstack] at hfail
          cases hfail
      | opening type spare => cases hfail
      | closing type spare =>
          -- in step, the node to close has another one below it, so only its value can be at fault
          have hrules := openRules_of_nest hnest
          obtain ⟨n, m, inner, hstack, rfl, -⟩ := h.twoInnermost hrules
          rw [advance_closing hrules, close_cases hstack] at hfail
          cases hout : n.assemble p.builder.source with
          | ok v =>
              rw [hout] at hfail
              cases hfail
          | error fault' =>
              rw [hout] at hfail
              cases fault' with
              | ragged l kept => cases stop <;> cases hfail
              | rejected r =>
                  cases hfail
                  exact .rejected spare hstack hrules hout

/-- A fault leaves stack and open rules in step. -/
theorem Faults.inStep (h : p.Faults e fault next) (hp : p.InStep) : next.InStep := by
  cases h with
  | refused hnest => exact hp
  | @rejected n m inner rules r spare hstack hrules hout =>
      unfold InStep at hp
      rw [hstack, hrules] at hp
      show (m.addAll _).type :: inner.map Node.type = rules ++ [.root]
      rw [Node.type_addAll]
      exact (List.cons.inj hp).2

end Progress

/-! ## §2. Events, one after the other. -/

/-- Where a run is after an event, whether it goes on or not. -/
def Advance.state : Advance → Progress
  | .goOn next => next
  | .stop next => next
  | .fail _ next => next

/-- What a run gives in the end, with the events that remain. -/
def Advance.resume (stop : Bool) (rest : List Event) : Advance → Run
  | .goOn next => next.drive stop rest
  | .stop next => next.finish
  | .fail fault next => next.fail fault

namespace Progress

/-- How the handling of events ends: behind the last one, or at one that ends the run. -/
def handled (stop : Bool) (p : Progress) : List Event → Advance
  | [] => .goOn p
  | e :: rest =>
    match p.advance stop e with
    | .goOn next => next.handled stop rest
    | .stop next => .stop next
    | .fail fault next => .fail fault next

variable {p q : Progress} {stop : Bool}

/-- **A run, cut behind some of its events.** -/
theorem drive_append (stop : Bool) (p : Progress) (seen rest : List Event) :
    p.drive stop (seen ++ rest) = (p.handled stop seen).resume stop rest := by
  induction seen generalizing p with
  | nil => rfl
  | cons e later ih =>
      rw [List.cons_append]
      unfold handled
      cases hout : p.advance stop e with
      | goOn next => rw [drive_goOn hout, ih]
      | stop next => exact drive_stop hout _
      | fail fault next => exact drive_fail hout _

/-- **One event keeps stack and open rules in step**, also when it ends the run. -/
theorem InStep.advance (h : p.InStep) (stop : Bool) (e : Event) :
    (p.advance stop e).state.InStep := by
  cases hout : p.advance stop e with
  | goOn next => exact h.next (congrArg Advance.next? hout)
  | stop next => exact h.next (congrArg Advance.next? hout)
  | fail fault next => exact (h.faults hout).inStep h

/-- Stack and open rules are in step wherever events lead. -/
theorem InStep.handled (h : p.InStep) (stop : Bool) (events : List Event) :
    (p.handled stop events).state.InStep := by
  induction events generalizing p with
  | nil => exact h
  | cons e rest ih =>
      have hnext := h.advance stop e
      unfold Progress.handled
      cases hout : p.advance stop e with
      | goOn next =>
          rw [hout] at hnext
          exact ih hnext
      | stop next =>
          rw [hout] at hnext
          exact hnext
      | fail fault next =>
          rw [hout] at hnext
          exact hnext

/-- From the bottom to the top, the stack is the root and then the open rules in their order. -/
theorem InStep.fromBottom (h : p.InStep) :
    p.builder.stack.reverse.map Node.type = .root :: p.openRules.reverse := by
  unfold InStep at h
  rw [List.map_reverse, h, List.reverse_append]
  rfl

/-- Events that a run survives are moves. -/
theorem reaches_of_handled {b : Builder} {seen later : List Event} (h : b.Reaches seen p)
    (hlater : p.handled stop later = .goOn q) : b.Reaches (seen ++ later) q := by
  induction later generalizing seen p with
  | nil =>
      cases hlater
      rw [List.append_nil]
      exact h
  | cons e rest ih =>
      unfold handled at hlater
      cases hout : p.advance stop e with
      | goOn next =>
          rw [hout] at hlater
          -- where a run gets is said from the back, so the event joins those that have been seen
          have hmoves : p.Moves e next := h.inStep.moves (congrArg Advance.next? hout)
          rw [← List.singleton_append, ← List.append_assoc]
          exact ih (h.move hmoves) hlater
      | stop next =>
          rw [hout] at hlater
          cases hlater
      | fail fault next =>
          rw [hout] at hlater
          cases hlater

/-- A move is a call that the builder carries out. -/
theorem Moves.handle {next : Progress} {e : Event} (h : p.Moves e next) :
    next.builder = (p.builder.handle e).2 := by
  cases h with
  | leaf t spare hstack => rw [Builder.handle_leaf hstack]
  | opening type spare => rfl
  | closing spare hstack hrules hfiled =>
      rw [Builder.handle_closing hstack]
      rfl

/-- A document is read off a stack that is not empty. -/
theorem InStep.finish_ne_underflow (h : p.InStep) (cause : Underflow) :
    p.finish.outcome ≠ .error (.builder (.underflow cause)) := by
  obtain ⟨n, outer, hstack⟩ := h.innermost
  rw [finish_eq hstack]
  exact nofun

theorem InStep.drive_ne_underflow (h : p.InStep) (stop : Bool) (events : List Event)
    (cause : Underflow) :
    (p.drive stop events).outcome ≠ .error (.builder (.underflow cause)) := by
  induction events generalizing p with
  | nil =>
      unfold drive
      cases p.openRules with
      | nil => exact h.finish_ne_underflow cause
      | cons innermost outer =>
          intro hfault
          cases hfault
  | cons e rest ih =>
      have hnext := h.advance stop e
      cases hout : p.advance stop e with
      | goOn next =>
          rw [drive_goOn hout]
          rw [hout] at hnext
          exact ih hnext
      | stop next =>
          rw [drive_stop hout]
          rw [hout] at hnext
          exact hnext.finish_ne_underflow cause
      | fail fault next =>
          -- neither of the two faults is about the length of the stack
          rw [drive_fail hout]
          intro hfault
          cases h.faults hout <;> cases hfault

end Progress

namespace Builder

/-- **The builder is where its own calls lead it**, whichever run makes them. -/
theorem Reaches.carryOn {b : Builder} {seen : List Event} {p : Progress} (h : b.Reaches seen p) :
    p.builder = b.reset.carryOn seen := by
  induction h with
  | start => rfl
  | move _ hmoves ih =>
      rw [hmoves.handle, carryOn_append, ih]
      rfl

/-- **No run finds the stack too short**, whatever its events are. -/
theorem run_ne_underflow (b : Builder) (stop : Bool) (events : List Event) (cause : Underflow) :
    (b.run stop events).outcome ≠ .error (.builder (.underflow cause)) :=
  (Progress.inStep_start b).drive_ne_underflow stop events cause

end Builder

/-! ## §3. Closings. -/

/-- **Stack and open rules mirror each other**, behind any events and however their handling ends.
While the run goes on, the builder is where its own calls lead it, and a closing takes the node of
the rule that it names from above another one, or it ends the run and the builder stays as it
is. -/
theorem stack_mirrors_open_rules (b : Builder) (stop : Bool) (seen : List Event) :
    (∀ rest, b.run stop (seen ++ rest)
        = ((Progress.start b).handled stop seen).resume stop rest)
      ∧ (∀ p, ((Progress.start b).handled stop seen).state = p →
        p.builder.stack.reverse.map Node.type = .root :: p.openRules.reverse)
      ∧ ∀ p, (Progress.start b).handled stop seen = .goOn p →
        Pending p.openRules seen ∧ p.builder = b.reset.carryOn seen
          ∧ ∀ type spare,
            (∃ n m inner outer, p.builder.stack = n :: m :: inner ∧ n.type = type
                ∧ p.openRules = type :: outer
                ∧ p.advance stop (.closing type spare) = p.close stop type outer)
              ∨ ∃ i, Event.nest p.openRules (.closing type spare) = .error i
                ∧ ∀ rest, b.run stop (seen ++ .closing type spare :: rest)
                  = ⟨.error (.unbalanced i), p.log, p.builder⟩ := by
  have hcut := Progress.drive_append stop (Progress.start b) seen
  have hstep := (Progress.inStep_start b).handled stop seen
  refine ⟨hcut, ?_, fun p hp => ?_⟩
  · rintro p rfl
    exact hstep.fromBottom
  · rw [hp] at hstep
    have hreaches : b.Reaches seen p := Progress.reaches_of_handled .start hp
    refine ⟨Event.nestAll_eq_ok_iff.1 hreaches.nestAll, hreaches.carryOn, fun type spare => ?_⟩
    cases hnest : Event.nest p.openRules (.closing type spare) with
    | ok outer =>
        have hrules := Progress.openRules_of_nest hnest
        obtain ⟨n, m, inner, hstack, htype, -⟩ := hreaches.inStep.twoInnermost hrules
        exact .inl ⟨n, m, inner, outer, hstack, htype, hrules,
          Progress.advance_closing hrules stop spare⟩
    | error i =>
        -- the closing is refused before the builder hears of it
        refine .inr ⟨i, rfl, fun rest => ?_⟩
        have hrun := hcut (.closing type spare :: rest)
        rw [hp] at hrun
        exact hrun.trans (Progress.drive_fail (Progress.advance_refused hnest stop) rest)

/-- Behind the ragged table, the last of these events names a rule that is not the innermost. -/
theorem stack_brokenEvents :
    ∃ p, (Progress.start (Builder.new "")).handled false brokenEvents.dropLast = .goOn p
      ∧ p.errors.length = 1
      ∧ p.builder.stack.reverse.map Node.type = [.root, .step]
      ∧ p.builder = (Builder.new "").carryOn brokenEvents.dropLast
      ∧ ∀ rest, (Builder.new "").run false (brokenEvents ++ rest)
          = ⟨.error (.unbalanced (.mismatch .rule .step)), p.log, p.builder⟩ := by
  obtain ⟨-, hmirror, hgoOn⟩ :=
    stack_mirrors_open_rules (Builder.new "") false brokenEvents.dropLast
  obtain ⟨-, hbuilder, hclosing⟩ := hgoOn _ rfl
  refine ⟨_, rfl, rfl, hmirror _ rfl, hbuilder, fun rest => ?_⟩
  rcases hclosing .rule none with ⟨n, m, inner, outer, -, -, hrules, -⟩ | ⟨i, hnest, hrun⟩
  · cases hrules
  · cases hnest
    exact hrun rest

end Gherkin
