/-
  Gherkin.Proofs.Reached
  ──────────────────────
  **WHERE A RUN CAN GET.**

  `Progress.Moves` lists what one event can do to a run that it does not end
  with a fault; `Builder.Reaches` is any number of such moves from the start.
  Neither depends on whether ragged tables stop the run: that only decides how
  far it gets.

    • `Progress.InStep`       — the nodes on the stack are those of the open
      rules, with the root below them,
    • `Progress.InStep.moves` — so the moves are all that an event can do,
    • `Builder.Reaches.inStep`, `Builder.Reaches.nestAll` — what holds wherever
      a run gets,
    • `Builder.run_ok`        — a run that has a result got somewhere, and the
      result is read off there.

  An invariant of runs needs one case per move and nothing else.
-/
import Gherkin.Proofs.Closing
import Gherkin.Proofs.Nesting

namespace Gherkin

/-! ## §1. The stack and the open rules. -/

namespace Progress

/-- The nodes on the stack are those of the open rules, and the root is below them. -/
def InStep (p : Progress) : Prop := p.builder.stack.map Node.type = p.openRules ++ [.root]

theorem inStep_start (b : Builder) : (start b).InStep := rfl

/-- There is always an innermost node. -/
theorem InStep.innermost {p : Progress} (h : p.InStep) :
    ∃ n outer, p.builder.stack = n :: outer := by
  cases hstack : p.builder.stack with
  | nil =>
      unfold InStep at h
      rw [hstack] at h
      exact absurd h.symm (by simp)
  | cons n outer => exact ⟨n, outer, rfl⟩

/-- The innermost open rule has its node, and there is another one below it. -/
theorem InStep.twoInnermost {p : Progress} {type : RuleType} {rules : List RuleType}
    (h : p.InStep) (hrules : p.openRules = type :: rules) :
    ∃ n m inner, p.builder.stack = n :: m :: inner ∧ n.type = type
      ∧ m.type :: inner.map Node.type = rules ++ [.root] := by
  unfold InStep at h
  rw [hrules] at h
  match hstack : p.builder.stack with
  | [] =>
      rw [hstack] at h
      cases h
  -- the root is below every open rule, so it cannot be the only node
  | [n] =>
      rw [hstack] at h
      have hlength := congrArg List.length h
      simp at hlength
  | n :: m :: inner =>
      rw [hstack] at h
      exact ⟨n, m, inner, rfl, (List.cons.inj h).1, (List.cons.inj h).2⟩

/-! ## §2. Moves. -/

/-- What one event does to a run, unless it ends the run with a fault. -/
inductive Moves (p : Progress) : Event → Progress → Prop
  | leaf {n : Node} {outer : List Node} (t : Token) (spare : Option RuleType)
      (hstack : p.builder.stack = n :: outer) :
      Moves p (.leaf t spare) { p with builder :=
        { p.builder with comments := p.builder.comments ++ t.comment?.toList
                         stack := n.addAll t.arrival :: outer } }
  | opening (type : RuleType) (spare : Option Token) :
      Moves p (.opening type spare)
        { p with builder := p.builder.openRule type, openRules := type :: p.openRules }
  | closing {n m : Node} {inner : List Node} {rules : List RuleType} {v : Value}
      (spare : Option Token) (hstack : p.builder.stack = n :: m :: inner)
      (hrules : p.openRules = n.type :: rules) (hfiled : n.filed? p.builder.source = some v) :
      Moves p (.closing n.type spare) (p.closed n.type n m inner rules)

variable {p next : Progress} {e : Event}

theorem Moves.inStep (h : p.Moves e next) (hp : p.InStep) : next.InStep := by
  unfold InStep at hp
  cases h with
  | @leaf n outer t spare hstack =>
      rw [hstack] at hp
      show (n.addAll t.arrival).type :: outer.map Node.type = _
      rw [Node.type_addAll]
      exact hp
  | opening type spare => exact congrArg (type :: ·) hp
  | @closing n m inner rules v spare hstack hrules hfiled =>
      rw [hstack, hrules] at hp
      show (m.addAll _).type :: inner.map Node.type = rules ++ [.root]
      rw [Node.type_addAll]
      exact (List.cons.inj hp).2

/-- The open rules move as in a pass over rule types. -/
theorem Moves.nest (h : p.Moves e next) : e.nest p.openRules = .ok next.openRules := by
  cases h with
  | leaf t spare hstack => rfl
  | opening type spare => rfl
  | closing spare hstack hrules hfiled =>
      rw [hrules, Event.nest_closing, if_pos rfl]
      rfl

end Progress

/-- The run after an event, unless the event has ended it with a fault. -/
def Advance.next? : Advance → Option Progress
  | .goOn next => some next
  | .stop next => some next
  | .fail _ _ => none

namespace Progress

/-- **The moves are all that an event can do**, short of a fault. -/
theorem InStep.moves {p next : Progress} {e : Event} {stop : Bool} (h : p.InStep)
    (hnext : (p.advance stop e).next? = some next) : p.Moves e next := by
  cases e with
  | leaf t spare =>
      obtain ⟨n, outer, hstack⟩ := h.innermost
      rw [advance_leaf hstack] at hnext
      cases hnext
      exact .leaf t spare hstack
  | opening type spare =>
      cases hnext
      exact .opening type spare
  | closing type spare =>
      cases hrules : p.openRules with
      | nil =>
          rw [advance_nothingOpen hrules] at hnext
          cases hnext
      | cons innermost rules =>
          by_cases htype : innermost = type
          · subst htype
            obtain ⟨n, m, inner, hstack, rfl, -⟩ := h.twoInnermost hrules
            rw [advance_closing hrules, close_cases hstack] at hnext
            -- whether a ragged table stops the run or not, the next state is the same
            cases hout : n.assemble p.builder.source with
            | ok v =>
                rw [hout] at hnext
                cases hnext
                exact .closing spare hstack hrules (Node.filed?_of_ok hout)
            | error fault =>
                rw [hout] at hnext
                cases fault with
                | ragged l kept =>
                    cases stop <;> cases hnext <;>
                      exact .closing spare hstack hrules (Node.filed?_of_ragged hout)
                | rejected r => cases hnext
          · rw [advance_mismatch hrules htype] at hnext
            cases hnext

theorem InStep.next {p next : Progress} {e : Event} {stop : Bool} (h : p.InStep)
    (hnext : (p.advance stop e).next? = some next) : next.InStep :=
  (h.moves hnext).inStep h

/-- Nothing stops a run that is not told to stop at a ragged table. -/
theorem close_ne_stop (p next : Progress) (type : RuleType) (outer : List RuleType) :
    p.close false type outer ≠ .stop next := by
  unfold close
  split <;> nofun

theorem advance_ne_stop (p next : Progress) (e : Event) : p.advance false e ≠ .stop next := by
  unfold advance
  split
  case h_1 => split <;> nofun
  case h_2 => nofun
  case h_3 =>
    split
    · nofun
    · split
      · exact close_ne_stop p next _ _
      · nofun

/-- The result of a run that is over is read off the innermost node. -/
theorem finish_eq {p : Progress} {n : Node} {outer : List Node}
    (h : p.builder.stack = n :: outer) :
    p.finish = ⟨.ok ⟨(n.first? .gherkinDocument).bind Value.document?, p.errors⟩, p.log,
      p.builder⟩ := by
  unfold finish Builder.document?
  simp only [h]

end Progress

/-! ## §3. Runs. -/

/-- Where a run is after the given events, none of which has ended it with a fault. -/
inductive Builder.Reaches (b : Builder) : List Event → Progress → Prop
  | start : Reaches b [] (.start b)
  | move {seen : List Event} {p next : Progress} {e : Event} :
      Reaches b seen p → p.Moves e next → Reaches b (seen ++ [e]) next

namespace Builder

variable {b : Builder} {seen : List Event} {p : Progress}

/-- **Stack and open rules stay in step.** -/
theorem Reaches.inStep (h : b.Reaches seen p) : p.InStep := by
  induction h with
  | start => exact Progress.inStep_start b
  | move _ hmoves ih => exact hmoves.inStep ih

/-- The open rules are those that the events leave open. -/
theorem Reaches.nestAll (h : b.Reaches seen p) : Event.nestAll [] seen = .ok p.openRules := by
  induction h with
  | start => rfl
  | @move seen p next e _ hmoves ih => rw [Event.nestAll_concat ih, hmoves.nest]

/-- A run that has a result, from anywhere it can get. -/
theorem Reaches.drive_ok {events : List Event} {stop : Bool} {build : Build}
    (h : b.Reaches seen p) (hrun : (p.drive stop events).outcome = .ok build) :
    ∃ more rest q, events = more ++ rest ∧ b.Reaches (seen ++ more) q
      ∧ q.finish.outcome = .ok build ∧ (rest = [] ∧ q.openRules = [] ∨ stop = true) := by
  induction events generalizing seen p with
  | nil =>
      unfold Progress.drive at hrun
      cases hrules : p.openRules with
      | nil =>
          rw [hrules] at hrun
          refine ⟨[], [], p, rfl, ?_, hrun, .inl ⟨rfl, hrules⟩⟩
          rw [List.append_nil]
          exact h
      | cons innermost outer =>
          rw [hrules] at hrun
          cases hrun
  | cons e rest ih =>
      unfold Progress.drive at hrun
      cases hout : p.advance stop e with
      | goOn next =>
          rw [hout] at hrun
          have hmoves : p.Moves e next := h.inStep.moves (by rw [hout]; rfl)
          obtain ⟨more, later, q, rfl, hq, hbuild, hend⟩ := ih (h.move hmoves) hrun
          rw [List.append_assoc] at hq
          exact ⟨e :: more, later, q, rfl, hq, hbuild, hend⟩
      | stop next =>
          rw [hout] at hrun
          have hmoves : p.Moves e next := h.inStep.moves (by rw [hout]; rfl)
          refine ⟨[e], rest, next, rfl, h.move hmoves, hrun, .inr ?_⟩
          cases stop with
          | false => exact absurd hout (Progress.advance_ne_stop p next e)
          | true => rfl
      | fail fault next =>
          rw [hout] at hrun
          cases hrun

/-- **A run that has a result** got somewhere, to the end of its events unless a ragged table
stopped it, and the result is read off there. -/
theorem run_ok {events : List Event} {stop : Bool} {build : Build}
    (h : (b.run stop events).outcome = .ok build) :
    ∃ seen rest p, events = seen ++ rest ∧ b.Reaches seen p
      ∧ p.finish.outcome = .ok build ∧ (rest = [] ∧ p.openRules = [] ∨ stop = true) :=
  Reaches.start.drive_ok h

/-- The result of a run is read off the innermost node of where it got. -/
theorem run_result {events : List Event} {stop : Bool} {document : Option Document}
    {errors : List RaggedTable} (h : (b.run stop events).outcome = .ok ⟨document, errors⟩) :
    ∃ seen rest p n outer, events = seen ++ rest ∧ b.Reaches seen p
      ∧ p.builder.stack = n :: outer
      ∧ (n.first? .gherkinDocument).bind Value.document? = document ∧ p.errors = errors := by
  obtain ⟨seen, rest, p, hsplit, hreaches, hfinish, -⟩ := run_ok h
  obtain ⟨n, outer, hstack⟩ := hreaches.inStep.innermost
  rw [Progress.finish_eq hstack] at hfinish
  injection hfinish with hbuild
  injection hbuild with hdocument herrors
  exact ⟨seen, rest, p, n, outer, hsplit, hreaches, hstack, hdocument, herrors⟩

end Builder

end Gherkin
