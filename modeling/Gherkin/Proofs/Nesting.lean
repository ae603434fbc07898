/-
  Gherkin.Proofs.Nesting
  ──────────────────────
  **STREAMS THAT NEST, AND WHERE OTHERS GO WRONG.**

  `Nested` says which streams nest, without a stack: every opening is followed
  by a nested stream and a closing of the same type.  `Pending` says which
  rules a stream leaves open, and `FirstImbalance` which event is the first
  that breaks the nesting.  `Event.imbalance?` goes over a stream once, with a
  stack of rule types:

    • `Event.nestAll_eq_ok_iff`      — it knows the rules that are open,
    • `Event.imbalance?_eq_none_iff` — it finds nothing in nested streams only,
    • `Event.imbalance?_eq_some_iff` — and else the first imbalance,
    • `Event.imbalance?_filter`      — without a look at any token.
-/
import Gherkin.Stream
import Mathlib.Data.List.Induction

namespace Gherkin

/-! ## §1. Nested streams. -/

/-- Streams in which openings and closings nest. -/
inductive Nested : List Event → Prop
  | nil : Nested []
  | leaf (token : Token) (spare : Option RuleType) {rest : List Event} :
      Nested rest → Nested (.leaf token spare :: rest)
  | rule (type : RuleType) (spare spare' : Option Token) {inner rest : List Event} :
      Nested inner → Nested rest →
      Nested (.opening type spare :: (inner ++ .closing type spare' :: rest))

/-- Streams that leave the given rules open, the innermost first. -/
inductive Pending : List RuleType → List Event → Prop
  | nested {events : List Event} : Nested events → Pending [] events
  | opened (type : RuleType) (spare : Option Token) {rules : List RuleType}
      {before inner : List Event} :
      Pending rules before → Nested inner →
      Pending (type :: rules) (before ++ .opening type spare :: inner)

/-- The first event that breaks the nesting of a stream, or the rule that its end leaves open. -/
inductive FirstImbalance (events : List Event) : Imbalance → Prop
  | nothingOpen {before after : List Event} {closed : RuleType} {spare : Option Token} :
      events = before ++ .closing closed spare :: after → Pending [] before →
      FirstImbalance events (.nothingOpen closed)
  | mismatch {before after : List Event} {closed innermost : RuleType} {outer : List RuleType}
      {spare : Option Token} :
      events = before ++ .closing closed spare :: after → Pending (innermost :: outer) before →
      closed ≠ innermost → FirstImbalance events (.mismatch closed innermost)
  | neverClosed {innermost : RuleType} {outer : List RuleType} :
      Pending (innermost :: outer) events → FirstImbalance events (.neverClosed innermost)

theorem Nested.append {es fs : List Event} (he : Nested es) (hf : Nested fs) :
    Nested (es ++ fs) := by
  induction he with
  | nil => exact hf
  | leaf token spare _ ih => exact .leaf token spare ih
  | rule type spare spare' hinner _ _ ihrest =>
      rw [List.cons_append, List.append_assoc]
      exact .rule type spare spare' hinner ihrest

theorem Pending.append {rules : List RuleType} {es fs : List Event} (he : Pending rules es)
    (hf : Nested fs) : Pending rules (es ++ fs) := by
  cases he with
  | nested he => exact .nested (he.append hf)
  | opened type spare hbefore hinner =>
      rw [List.append_assoc]
      exact .opened type spare hbefore (hinner.append hf)

/-- Closing the innermost rule that a stream leaves open. -/
theorem Pending.closing {type : RuleType} {rules : List RuleType} {es : List Event}
    (he : Pending (type :: rules) es) (spare : Option Token) :
    Pending rules (es ++ [.closing type spare]) := by
  cases he with
  | opened _ spare' hbefore hinner =>
      rw [List.append_assoc]
      exact hbefore.append (.rule type spare' spare hinner .nil)

/-! ## §2. One pass over a stream. -/

namespace Event

/-- The open rules after an event, given those before it. -/
def nest (rules : List RuleType) : Event → Except Imbalance (List RuleType)
  | .leaf _ _ => .ok rules
  | .opening type _ => .ok (type :: rules)
  | .closing type _ =>
    match rules with
    | [] => .error (.nothingOpen type)
    | innermost :: outer =>
      if innermost = type then .ok outer else .error (.mismatch type innermost)

/-- The open rules after a stream, given those before it. -/
def nestAll : List RuleType → List Event → Except Imbalance (List RuleType)
  | rules, [] => .ok rules
  | rules, e :: rest =>
    match e.nest rules with
    | .ok next => nestAll next rest
    | .error i => .error i

/-- What is wrong with the nesting of a stream, given the rules that are open before it. -/
def imbalance? (rules : List RuleType) (events : List Event) : Option Imbalance :=
  match nestAll rules events with
  | .ok [] => none
  | .ok (innermost :: _) => some (.neverClosed innermost)
  | .error i => some i

theorem nest_closing (innermost type : RuleType) (outer : List RuleType) (spare : Option Token) :
    nest (innermost :: outer) (.closing type spare) =
      if innermost = type then .ok outer else .error (.mismatch type innermost) := rfl

theorem nestAll_append (rules : List RuleType) (es fs : List Event) :
    nestAll rules (es ++ fs) =
      match nestAll rules es with
      | .ok next => nestAll next fs
      | .error i => .error i := by
  induction es generalizing rules with
  | nil => rfl
  | cons e rest ih =>
      show (match e.nest rules with | .ok next => nestAll next (rest ++ fs) | .error i => .error i)
        = match (match e.nest rules with
            | .ok next => nestAll next rest
            | .error i => .error i) with
          | .ok next => nestAll next fs
          | .error i => .error i
      cases e.nest rules with
      | ok next => exact ih next
      | error i => rfl

/-- One more event, after events that are in order. -/
theorem nestAll_concat {rules next : List RuleType} {events : List Event}
    (h : nestAll rules events = .ok next) (e : Event) :
    nestAll rules (events ++ [e]) = e.nest next := by
  rw [nestAll_append, h]
  show nestAll next [e] = e.nest next
  unfold nestAll
  cases e.nest next <;> rfl

/-- A nested stream leaves the open rules as they are. -/
theorem nestAll_nested {inner : List Event} (h : Nested inner) (rules : List RuleType) :
    nestAll rules inner = .ok rules := by
  induction h generalizing rules with
  | nil => rfl
  | leaf token spare _ ih => exact ih rules
  | rule type spare spare' _ _ ihinner ihrest =>
      -- the inner stream leaves `type` on top, and the closing takes it off
      show nestAll (type :: rules) _ = _
      rw [nestAll_append, ihinner]
      show (match (if type = type then Except.ok rules else _) with
        | .ok next => nestAll next _
        | .error i => .error i) = _
      rw [if_pos rfl]
      exact ihrest rules

theorem nestAll_pending {rules : List RuleType} {events : List Event} (h : Pending rules events) :
    nestAll [] events = .ok rules := by
  induction h with
  | nested h => exact nestAll_nested h []
  | opened type spare _ hinner ih =>
      rw [nestAll_append, ih]
      exact nestAll_nested hinner _

/-- **The pass finds the open rules.** -/
theorem nestAll_eq_ok_iff {rules : List RuleType} {events : List Event} :
    nestAll [] events = .ok rules ↔ Pending rules events := by
  refine ⟨?_, nestAll_pending⟩
  -- from the right: the open rules are those of the stream without its last event, changed by it
  induction events using List.reverseRecOn generalizing rules with
  | nil =>
      intro h
      cases h
      exact .nested .nil
  | append_singleton before e ih =>
      intro h
      rw [nestAll_append] at h
      cases hbefore : nestAll [] before with
      | error i =>
          rw [hbefore] at h
          cases h
      | ok open' =>
          rw [hbefore] at h
          have hpending : Pending open' before := ih hbefore
          cases e with
          | leaf token spare =>
              cases h
              exact hpending.append (.leaf token spare .nil)
          | opening type spare =>
              cases h
              exact .opened type spare hpending .nil
          | closing type spare =>
              cases open' with
              | nil => cases h
              | cons innermost outer =>
                  simp only [nestAll, nest_closing] at h
                  by_cases htype : innermost = type
                  · subst htype
                    rw [if_pos rfl] at h
                    cases h
                    exact hpending.closing spare
                  · rw [if_neg htype] at h
                    cases h

/-- A stream that closes all open rules closes the innermost one first, behind a nested part. -/
theorem exists_closing_of_nestAll (type : RuleType) (rules : List RuleType) (events : List Event)
    (h : nestAll (type :: rules) events = .ok []) :
    ∃ own spare later, events = own ++ .closing type spare :: later ∧ Nested own := by
  match events with
  | [] => cases h
  | .leaf token spare :: rest =>
      obtain ⟨own, spare', later, rfl, hown⟩ := exists_closing_of_nestAll type rules rest h
      exact ⟨.leaf token spare :: own, spare', later, rfl, .leaf token spare hown⟩
  | .closing closed spare :: rest =>
      by_cases htype : type = closed
      · subst htype
        exact ⟨[], spare, rest, rfl, .nil⟩
      · rw [nestAll, nest_closing, if_neg htype] at h
        cases h
  | .opening opened spare :: rest =>
      -- the rule opened here is closed first, and what follows closes the others
      obtain ⟨inner, spare', later, hrest, hinner⟩ :=
        exists_closing_of_nestAll opened (type :: rules) rest h
      have hlater : nestAll (type :: rules) later = .ok [] := by
        change nestAll (opened :: type :: rules) rest = .ok [] at h
        rw [hrest, nestAll_append, nestAll_nested hinner] at h
        simpa only [nestAll, nest_closing, if_pos] using h
      have hshorter : later.length < rest.length := by
        rw [hrest, List.length_append, List.length_cons]
        omega
      obtain ⟨own, spare'', last, rfl, hown⟩ := exists_closing_of_nestAll type rules later hlater
      refine ⟨.opening opened spare :: (inner ++ .closing opened spare' :: own), spare'', last, ?_,
        .rule opened spare spare' hinner hown⟩
      rw [hrest, List.cons_append, List.append_assoc, List.cons_append]
termination_by events.length

/-- An error of the pass is the error of one event, all events before it being in order. -/
theorem nestAll_error {rules : List RuleType} {events : List Event} {i : Imbalance}
    (h : nestAll rules events = .error i) :
    ∃ before e after next, events = before ++ e :: after
      ∧ nestAll rules before = .ok next ∧ e.nest next = .error i := by
  induction events generalizing rules with
  | nil => cases h
  | cons e rest ih =>
      unfold nestAll at h
      cases he : e.nest rules with
      | error j =>
          rw [he] at h
          cases h
          exact ⟨[], e, rest, rules, rfl, rfl, he⟩
      | ok next =>
          rw [he] at h
          obtain ⟨before, e', after, next', rfl, hbefore, he'⟩ := ih h
          refine ⟨e :: before, e', after, next', rfl, ?_, he'⟩
          unfold nestAll
          rw [he]
          exact hbefore

theorem nestAll_eq_nil_iff {events : List Event} : nestAll [] events = .ok [] ↔ Nested events := by
  rw [nestAll_eq_ok_iff]
  constructor
  · intro h
    cases h with
    | nested h => exact h
  · exact .nested

theorem imbalance?_eq_none_iff {events : List Event} :
    imbalance? [] events = none ↔ Nested events := by
  unfold imbalance?
  constructor
  · intro h
    split at h
    next hopen => exact nestAll_eq_nil_iff.1 hopen
    next => cases h
    next => cases h
  · intro h
    rw [nestAll_nested h]

/-- **The pass finds the first imbalance.** -/
theorem imbalance?_eq_some_iff {events : List Event} {i : Imbalance} :
    imbalance? [] events = some i ↔ FirstImbalance events i := by
  unfold imbalance?
  constructor
  · intro h
    split at h
    next => cases h
    next hopen =>
      cases h
      exact .neverClosed (nestAll_eq_ok_iff.1 hopen)
    next hfault =>
      cases h
      obtain ⟨before, e, after, next, rfl, hbefore, he⟩ := nestAll_error hfault
      have hpending : Pending next before := nestAll_eq_ok_iff.1 hbefore
      cases e with
      | leaf token spare => cases he
      | opening type spare => cases he
      | closing type spare =>
          cases next with
          | nil =>
              cases he
              exact .nothingOpen rfl hpending
          | cons innermost outer =>
              rw [nest_closing] at he
              split at he
              next => cases he
              next hne =>
                cases he
                exact .mismatch rfl hpending (Ne.symm hne)
  · intro h
    cases h with
    | nothingOpen hsplit hpending =>
        rw [hsplit, nestAll_append, nestAll_pending hpending]
        rfl
    | mismatch hsplit hpending hne =>
        rw [hsplit, nestAll_append, nestAll_pending hpending]
        simp only [nestAll, nest_closing, if_neg (Ne.symm hne)]
    | neverClosed hpending => rw [nestAll_pending hpending]

end Event

/-- **What follows in a nested stream** closes the innermost rule that is open. -/
theorem Pending.exists_closing {type : RuleType} {rules : List RuleType} {front rest : List Event}
    (hfront : Pending (type :: rules) front) (h : Nested (front ++ rest)) :
    ∃ own spare later, rest = own ++ .closing type spare :: later ∧ Nested own := by
  have hall : Event.nestAll [] (front ++ rest) = .ok [] := Event.nestAll_nested h []
  rw [Event.nestAll_append, Event.nestAll_pending hfront] at hall
  exact Event.exists_closing_of_nestAll type rules rest hall

namespace Event

/-! ## §3. Tokens do not matter. -/

/-- Whether an event opens or closes a rule. -/
def isBracket : Event → Bool
  | .leaf _ _ => false
  | _ => true

theorem nestAll_filter (rules : List RuleType) (events : List Event) :
    nestAll rules (events.filter isBracket) = nestAll rules events := by
  induction events generalizing rules with
  | nil => rfl
  | cons e rest ih =>
      cases e with
      | leaf token spare => exact ih rules
      | opening type spare => exact ih (type :: rules)
      | closing type spare =>
          show (match nest rules (.closing type spare) with
            | .ok next => nestAll next (rest.filter isBracket)
            | .error i => .error i) = _
          cases hnest : nest rules (.closing type spare) with
          | ok next =>
              rw [nestAll, hnest]
              exact ih next
          | error i => rw [nestAll, hnest]

theorem imbalance?_filter (rules : List RuleType) (events : List Event) :
    imbalance? rules (events.filter isBracket) = imbalance? rules events := by
  unfold imbalance?
  rw [nestAll_filter]

end Event

end Gherkin
