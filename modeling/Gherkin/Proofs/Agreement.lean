/-
  Gherkin.Proofs.Agreement
  ────────────────────────
  **TWO RUNS THAT LOOK THE SAME.**

  A `View` forgets part of what nodes hold, but nothing that decides how their
  rules close.  Two runs whose stacks look the same through a view then take
  the same way through the same events:

    • `View`                 — what is forgotten, with the laws that make it
      harmless: filing and closing respect it,
    • `View.addAll_eq`, `View.arrival_eq`, `View.report?_eq` — what arrives at
      the next node, and what is reported, when two such nodes close,
    • `Progress.Lockstep.drive` — two runs that every event keeps in a relation
      end in it,
    • `Progress.Agree`          — two runs that look the same, each of which may
      have reported something of its own before,
    • `Progress.Agree.advance`  — one event keeps them so.

  Each view has its own reason for the laws; the stack is gone through once.
-/
import Gherkin.Proofs.Reached

namespace Gherkin

/-! ## §1. Views. -/

/-- A way of looking at nodes and values that filing and closing respect. -/
structure View where
  /-- What is seen of a node. -/
  node : Node → Node
  /-- What is seen of a value that is filed under a category. -/
  value : RuleType → Value → Value
  type_eq : ∀ {n m : Node}, node n = node m → n.type = m.type
  add_eq : ∀ {n m : Node} {c : RuleType} {v w : Value}, node n = node m → value c v = value c w →
    node (n.add c v) = node (m.add c w)
  assemble_eq : ∀ {n m : Node}, node n = node m → ∀ uri comments comments',
    (n.assemble (.of uri comments)).map (value n.type)
      = (m.assemble (.of uri comments')).map (value n.type)

namespace View

variable (V : View)

/-- What is seen of arrivals. -/
def arrivals (as : List (RuleType × Value)) : List (RuleType × Value) :=
  as.map fun a => (a.1, V.value a.1 a.2)

/-- Arrivals that look the same keep two nodes looking the same. -/
theorem addAll_eq {as bs : List (RuleType × Value)} {n m : Node} (h : V.node n = V.node m)
    (ha : V.arrivals as = V.arrivals bs) : V.node (n.addAll as) = V.node (m.addAll bs) := by
  induction as generalizing bs n m with
  | nil =>
      have hnil : bs = [] := List.map_eq_nil_iff.1 ha.symm
      rw [hnil]
      exact h
  | cons a rest ih =>
      obtain ⟨b, rest', rfl, hb, hrest⟩ := List.map_eq_cons_iff.1 ha.symm
      obtain ⟨hkey, hvalue⟩ := Prod.mk.inj hb
      rw [Node.addAll_cons, Node.addAll_cons]
      apply ih _ hrest.symm
      -- both values are filed under one category
      rw [hkey] at hvalue ⊢
      exact V.add_eq h hvalue.symm

/-- The two ways in which the rules of nodes that look the same can close. -/
theorem assemble_cases {n m : Node} (h : V.node n = V.node m) (uri : String)
    (comments comments' : List Comment) :
    (∃ v w, n.assemble (.of uri comments) = .ok v ∧ m.assemble (.of uri comments') = .ok w
        ∧ V.value n.type v = V.value n.type w)
      ∨ ∃ fault, n.assemble (.of uri comments) = .error fault
        ∧ m.assemble (.of uri comments') = .error fault := by
  have heq := V.assemble_eq h uri comments comments'
  cases hn : n.assemble (.of uri comments) with
  | ok v =>
      cases hm : m.assemble (.of uri comments') with
      | ok w =>
          rw [hn, hm] at heq
          exact .inl ⟨v, w, rfl, rfl, Except.ok.inj heq⟩
      | error fault =>
          rw [hn, hm] at heq
          cases heq
  | error fault =>
      cases hm : m.assemble (.of uri comments') with
      | ok w =>
          rw [hn, hm] at heq
          cases heq
      | error fault' =>
          rw [hn, hm] at heq
          obtain rfl := Except.error.inj heq
          exact .inr ⟨fault, rfl, rfl⟩

theorem report?_eq {n m : Node} (h : V.node n = V.node m) (uri : String)
    (comments comments' : List Comment) :
    n.report? (.of uri comments) = m.report? (.of uri comments') := by
  rcases V.assemble_cases h uri comments comments' with ⟨v, w, hv, hw, -⟩ | ⟨fault, hn, hm⟩
  · rw [Node.report?_of_ok hv, Node.report?_of_ok hw]
  · unfold Node.report?
    rw [hn, hm]

/-- **What two nodes that look the same leave behind** looks the same. -/
theorem arrival_eq {n m : Node} (h : V.node n = V.node m) (uri : String)
    (comments comments' : List Comment) :
    V.arrivals (n.arrival (.of uri comments)) = V.arrivals (m.arrival (.of uri comments')) := by
  rcases V.assemble_cases h uri comments comments' with ⟨v, w, hv, hw, hvw⟩ | ⟨fault, hn, hm⟩
  · rw [Node.arrival_of_filed (Node.filed?_of_ok hv), Node.arrival_of_filed (Node.filed?_of_ok hw)]
    show [(n.type, V.value n.type v)] = [(m.type, V.value m.type w)]
    rw [← V.type_eq h, hvw]
  · cases fault with
    | ragged l kept =>
        rw [Node.arrival_of_filed (Node.filed?_of_ragged hn),
          Node.arrival_of_filed (Node.filed?_of_ragged hm), V.type_eq h]
    | rejected r => rw [Node.arrival_of_rejected hn, Node.arrival_of_rejected hm]

end View

/-! ## §2. Two runs side by side. -/

/-- Two events that end in the same way, with runs after them that are in a relation. -/
inductive Advance.Related (R : Progress → Progress → Prop) : Advance → Advance → Prop
  | goOn {p q : Progress} : R p q → Related R (.goOn p) (.goOn q)
  | stop {p q : Progress} : R p q → Related R (.stop p) (.stop q)
  | fail {p q : Progress} (fault : StreamFault) : R p q → Related R (.fail fault p) (.fail fault q)

/-- A relation that two runs keep when one handles the events of a stream and the other those that
`f` puts in their place, and what it says of two runs that have ended. -/
structure Progress.Lockstep (stop : Bool) (f : Event → Event) (R : Progress → Progress → Prop)
    (S : Run → Run → Prop) : Prop where
  openRules : ∀ {p q : Progress}, R p q → p.openRules = q.openRules
  advance : ∀ {p q : Progress}, R p q → p.InStep → ∀ e : Event,
    Advance.Related R (p.advance stop e) (q.advance stop (f e))
  finish : ∀ {p q : Progress}, R p q → p.InStep → p.openRules = [] ∨ stop = true →
    S p.finish q.finish
  fail : ∀ {p q : Progress}, R p q → ∀ fault : StreamFault, S (p.fail fault) (q.fail fault)

/-- **Two runs in lockstep** end in the relation that their ends are in. -/
theorem Progress.Lockstep.drive {stop : Bool} {f : Event → Event}
    {R : Progress → Progress → Prop} {S : Run → Run → Prop} (h : Lockstep stop f R S)
    {p q : Progress} (hR : R p q) (hp : p.InStep) (events : List Event) :
    S (p.drive stop events) (q.drive stop (events.map f)) := by
  induction events generalizing p q with
  | nil =>
      show S (p.drive stop []) (q.drive stop [])
      unfold Progress.drive
      rw [← h.openRules hR]
      cases hrules : p.openRules with
      | nil => exact h.finish hR hp (.inl hrules)
      | cons innermost outer => exact h.fail hR _
  | cons e rest ih =>
      rw [List.map_cons]
      have hadvance := h.advance hR hp e
      generalize hx : p.advance stop e = x at hadvance
      generalize hy : q.advance stop (f e) = y at hadvance
      cases hadvance with
      | goOn hnext =>
          rw [drive_goOn hx, drive_goOn hy]
          exact ih hnext (hp.next (by rw [hx]; rfl))
      | @stop p' q' hnext =>
          rw [drive_stop hx, drive_stop hy]
          have hstop : stop = true := by
            cases stop with
            | false => exact absurd hx (advance_ne_stop p p' e)
            | true => rfl
          exact h.finish hnext (hp.next (by rw [hx]; rfl)) (.inr hstop)
      | fail fault hnext =>
          rw [drive_fail hx, drive_fail hy]
          exact h.fail hnext fault

/-! ## §3. Runs that look the same. -/

/-- Two runs that look the same between two events; since `p₀` and `q₀` both have reported and
noted the same. -/
structure Progress.Agree (V : View) (p₀ q₀ p q : Progress) : Prop where
  uri : p.builder.uri = q.builder.uri
  documentUri : p.builder.documentUri = q.builder.documentUri
  stack : p.builder.stack.map V.node = q.builder.stack.map V.node
  openRules : p.openRules = q.openRules
  errors : ∃ new, p.errors = p₀.errors ++ new ∧ q.errors = q₀.errors ++ new
  log : ∃ new, p.log = p₀.log ++ new ∧ q.log = q₀.log ++ new

namespace Progress

variable {V : View} {p₀ q₀ p q : Progress}

/-- The innermost nodes of two runs that look the same. -/
theorem Agree.stack_cons {n : Node} {outer : List Node} (h : p₀.Agree V q₀ p q)
    (hstack : p.builder.stack = n :: outer) :
    ∃ m outer', q.builder.stack = m :: outer' ∧ V.node n = V.node m
      ∧ outer.map V.node = outer'.map V.node := by
  have hmap := h.stack
  rw [hstack] at hmap
  obtain ⟨m, outer', hq, hm, houter⟩ := List.map_eq_cons_iff.1 hmap.symm
  exact ⟨m, outer', hq, hm.symm, houter.symm⟩

/-- The documents of both runs are of one file. -/
theorem Agree.source (h : p₀.Agree V q₀ p q) :
    q.builder.source = .of p.builder.documentUri q.builder.comments := by
  rw [h.documentUri]
  rfl

/-- Closing the innermost rule of two runs that look the same. -/
theorem Agree.closed {n m n' m' : Node} {inner inner' : List Node} (h : p₀.Agree V q₀ p q)
    (hn : V.node n = V.node n') (hm : V.node m = V.node m')
    (hinner : inner.map V.node = inner'.map V.node) (type : RuleType) (rules : List RuleType) :
    p₀.Agree V q₀ (p.closed type n m inner rules) (q.closed type n' m' inner' rules) := by
  obtain ⟨errors, hp, hq⟩ := h.errors
  obtain ⟨notes, hlogp, hlogq⟩ := h.log
  have hreport : n.report? p.builder.source = n'.report? q.builder.source := by
    rw [h.source]
    exact V.report?_eq hn _ _ _
  have harrival : V.arrivals (n.arrival p.builder.source)
      = V.arrivals (n'.arrival q.builder.source) := by
    rw [h.source]
    exact V.arrival_eq hn _ _ _
  refine ⟨h.uri, h.documentUri, ?_, rfl, ?_, ?_⟩
  · show V.node (m.addAll _) :: inner.map V.node = V.node (m'.addAll _) :: inner'.map V.node
    rw [V.addAll_eq hm harrival, hinner]
  · refine ⟨errors ++ (n.report? p.builder.source).toList, ?_, ?_⟩
    · show p.errors ++ _ = _
      rw [hp, List.append_assoc]
    · show q.errors ++ _ = _
      rw [hq, ← hreport, List.append_assoc]
  · refine ⟨notes ++ ((n.report? p.builder.source).map (RaggedTable.note type)).toList, ?_, ?_⟩
    · show p.log ++ _ = _
      rw [hlogp, List.append_assoc]
    · show q.log ++ _ = _
      rw [hlogq, ← hreport, List.append_assoc]

/-- **One event keeps two runs looking the same.** -/
theorem Agree.advance (h : p₀.Agree V q₀ p q) (hp : p.InStep) (stop : Bool) (e : Event) :
    Advance.Related (p₀.Agree V q₀) (p.advance stop e) (q.advance stop e) := by
  cases e with
  | leaf t spare =>
      obtain ⟨n, outer, hstack⟩ := hp.innermost
      obtain ⟨m, outer', hstack', hn, houter⟩ := h.stack_cons hstack
      rw [advance_leaf hstack, advance_leaf hstack']
      refine .goOn ⟨h.uri, h.documentUri, ?_, h.openRules, h.errors, h.log⟩
      show V.node (n.addAll _) :: outer.map V.node = V.node (m.addAll _) :: outer'.map V.node
      rw [V.addAll_eq hn rfl, houter]
  | opening type spare =>
      refine .goOn ⟨h.uri, h.documentUri, ?_, ?_, h.errors, h.log⟩
      · exact congrArg (V.node (.empty type) :: ·) h.stack
      · exact congrArg (type :: ·) h.openRules
  | closing type spare =>
      cases hrules : p.openRules with
      | nil =>
          rw [advance_nothingOpen hrules, advance_nothingOpen (h.openRules.symm.trans hrules)]
          exact .fail _ h
      | cons innermost rules =>
          have hrules' : q.openRules = innermost :: rules := h.openRules.symm.trans hrules
          by_cases htype : innermost = type
          · subst htype
            obtain ⟨n, m, inner, hstack, -, -⟩ := hp.twoInnermost hrules
            obtain ⟨n', below, hstack', hn, hbelow⟩ := h.stack_cons hstack
            obtain ⟨m', inner', rfl, hm, hinner⟩ := List.map_eq_cons_iff.1 hbelow.symm
            have hclosed := h.closed hn hm.symm hinner.symm innermost rules
            rw [advance_closing hrules, advance_closing hrules', close_cases hstack,
              close_cases hstack']
            -- both closings end in the same way, and then the runs look the same
            have hcases := V.assemble_cases hn p.builder.documentUri p.builder.comments
              q.builder.comments
            rw [← h.source] at hcases
            change (∃ v w, n.assemble p.builder.source = .ok v ∧ _) ∨
              ∃ fault, n.assemble p.builder.source = .error fault ∧ _ at hcases
            rcases hcases with ⟨v, w, hv, hw, -⟩ | ⟨fault, hf, hf'⟩
            · rw [hv, hw]
              exact .goOn hclosed
            · rw [hf, hf']
              cases fault with
              | ragged l kept =>
                  cases stop with
                  | false => exact .goOn hclosed
                  | true => exact .stop hclosed
              | rejected r => exact .fail _ hclosed
          · rw [advance_mismatch hrules htype, advance_mismatch hrules' htype]
            exact .fail _ h

end Progress

end Gherkin
