/-
  Gherkin.Proofs.Closing
  ──────────────────────
  **WHAT ONE OPERATION DOES TO THE STACK.**

  Every operation of a builder changes the innermost node only, or moves
  between it and the next one:

    • `Builder.accept_eq`    — a token arrives at the innermost node, or among
      the comments,
    • `Builder.closeRule_eq` — the innermost node goes, and what it leaves
      behind arrives at the next one,
    • `Progress.close_eq`    — the same for a run, in which a ragged table is
      noted and only a rejection ends the run.

  The value that is filed depends on `Node.assemble` alone; no branch of it is
  opened here.
-/
import Gherkin.Proofs.Assembling
import Gherkin.Proofs.Tree
import Gherkin.Stream

namespace Gherkin

/-! ## §1. Operations of the builder. -/

/-- How a closing ends, as the builder reports it. -/
def Builder.verdict : Except (Fault Value) Value → Except BuilderFault Value
  | .ok v => .ok v
  | .error (.ragged location kept) => .error (.ragged ⟨location, kept⟩)
  | .error (.rejected rejection) => .error (.rejected rejection)

namespace Builder

/-- **A token** arrives at the innermost node, or among the comments. -/
theorem accept_eq {b : Builder} {n : Node} {outer : List Node} (h : b.stack = n :: outer)
    (t : Token) :
    b.accept t = .ok { b with comments := b.comments ++ t.comment?.toList
                              stack := n.addAll t.arrival :: outer } := by
  unfold Token.arrival Token.comment?
  by_cases ht : t.type = .comment
  · rw [accept_comment ht, if_pos ht, if_pos ht, Node.addAll_nil, ← h]
    rfl
  · rw [accept_of_ne ht, if_neg ht, if_neg ht]
    unfold file
    rw [h]
    show Except.ok _ = Except.ok { b with comments := b.comments ++ [], stack := _ }
    rw [List.append_nil]
    rfl

/-- **A closing** removes the innermost node; what it leaves behind arrives at the next one. -/
theorem closeRule_eq {b : Builder} {n m : Node} {outer : List Node}
    (h : b.stack = n :: m :: outer) :
    b.closeRule = (verdict (n.assemble b.source),
      { b with stack := m.addAll (n.arrival b.source) :: outer }) := by
  unfold closeRule
  -- the node is gone in all three cases; only the last leaves nothing behind
  cases hout : n.assemble b.source with
  | ok v =>
      rw [Node.arrival_of_filed (Node.filed?_of_ok hout)]
      simp only [h, hout]
      rfl
  | error fault =>
      cases fault with
      | ragged l kept =>
          rw [Node.arrival_of_filed (Node.filed?_of_ragged hout)]
          simp only [h, hout]
          rfl
      | rejected r =>
          rw [Node.arrival_of_rejected hout]
          simp only [h, hout]
          rfl

end Builder

/-! ## §2. Events in a run. -/

/-- The note on a ragged table. -/
def RaggedTable.note (type : RuleType) (table : RaggedTable) : LogEntry :=
  .errorClosing type table.message

namespace Progress

/-- The run after a closing: what the innermost node leaves behind has arrived at the next one, and
a ragged table has been noted. -/
def closed (p : Progress) (type : RuleType) (n m : Node) (inner : List Node)
    (outer : List RuleType) : Progress :=
  { builder := { p.builder with stack := m.addAll (n.arrival p.builder.source) :: inner }
    openRules := outer
    errors := p.errors ++ (n.report? p.builder.source).toList
    log := p.log ++ ((n.report? p.builder.source).map (RaggedTable.note type)).toList }

/-- **A closing in a run** goes on, or stops at a ragged table, or fails at a rejection. -/
theorem close_cases {p : Progress} {n m : Node} {inner : List Node}
    (h : p.builder.stack = n :: m :: inner) (stop : Bool) (type : RuleType)
    (outer : List RuleType) :
    p.close stop type outer =
      match n.assemble p.builder.source with
      | .ok _ => .goOn (p.closed type n m inner outer)
      | .error (.ragged _ _) =>
        if stop then .stop (p.closed type n m inner outer)
        else .goOn (p.closed type n m inner outer)
      | .error (.rejected r) =>
        .fail (.builder (.rejected r)) (p.closed type n m inner outer) := by
  unfold close closed
  rw [Builder.closeRule_eq h]
  cases hout : n.assemble p.builder.source with
  | ok v =>
      rw [Node.report?_of_ok hout]
      simp only [Option.map_none, Option.toList_none, List.append_nil]
      rfl
  | error fault =>
      cases fault with
      | ragged l kept =>
          rw [Node.report?_of_ragged hout]
          rfl
      | rejected r =>
          rw [Node.report?_of_rejected hout]
          simp only [Option.map_none, Option.toList_none, List.append_nil]
          rfl

/-- A closing in a run that nothing stops notes a ragged table and goes on. -/
theorem close_eq {p : Progress} {n m : Node} {inner : List Node}
    (h : p.builder.stack = n :: m :: inner)
    (hok : ∀ r, n.assemble p.builder.source ≠ .error (.rejected r))
    (type : RuleType) (outer : List RuleType) :
    p.close false type outer = .goOn
      { builder := { p.builder with stack := m.addAll (n.arrival p.builder.source) :: inner }
        openRules := outer
        errors := p.errors ++ (n.report? p.builder.source).toList
        log := p.log ++ ((n.report? p.builder.source).map (RaggedTable.note type)).toList } := by
  rw [close_cases h]
  cases hout : n.assemble p.builder.source with
  | ok v => rfl
  | error fault =>
      cases fault with
      | ragged l kept => rfl
      | rejected r => exact absurd hout (hok r)

/-- Reading a token in a run. -/
theorem advance_leaf {p : Progress} {n : Node} {outer : List Node}
    (h : p.builder.stack = n :: outer) (stop : Bool) (t : Token) (spare : Option RuleType) :
    p.advance stop (.leaf t spare) = .goOn { p with builder :=
      { p.builder with comments := p.builder.comments ++ t.comment?.toList
                       stack := n.addAll t.arrival :: outer } } := by
  unfold advance
  simp only [Builder.accept_eq h]

/-- Opening a rule in a run. -/
theorem advance_opening (p : Progress) (stop : Bool) (type : RuleType) (spare : Option Token) :
    p.advance stop (.opening type spare) = .goOn
      { p with builder := p.builder.openRule type, openRules := type :: p.openRules } := rfl

/-- Closing the innermost open rule in a run. -/
theorem advance_closing {p : Progress} {type : RuleType} {outer : List RuleType}
    (h : p.openRules = type :: outer) (stop : Bool) (spare : Option Token) :
    p.advance stop (.closing type spare) = p.close stop type outer := by
  unfold advance
  simp only [h, if_pos]

/-- Closing a rule in a run while none is open. -/
theorem advance_nothingOpen {p : Progress} (h : p.openRules = []) (stop : Bool) (type : RuleType)
    (spare : Option Token) :
    p.advance stop (.closing type spare) = .fail (.unbalanced (.nothingOpen type)) p := by
  unfold advance
  simp only [h]

/-- Closing a rule in a run while another one is the innermost open rule. -/
theorem advance_mismatch {p : Progress} {innermost type : RuleType} {outer : List RuleType}
    (h : p.openRules = innermost :: outer) (hne : innermost ≠ type) (stop : Bool)
    (spare : Option Token) :
    p.advance stop (.closing type spare) = .fail (.unbalanced (.mismatch type innermost)) p := by
  unfold advance
  simp only [h, if_neg hne]

/-- A run goes on with the events that remain. -/
theorem drive_goOn {p next : Progress} {stop : Bool} {e : Event}
    (h : p.advance stop e = .goOn next) (rest : List Event) :
    p.drive stop (e :: rest) = next.drive stop rest := by
  simp only [drive, h]

/-- A run ends with the result so far when an event stops it. -/
theorem drive_stop {p next : Progress} {stop : Bool} {e : Event}
    (h : p.advance stop e = .stop next) (rest : List Event) :
    p.drive stop (e :: rest) = next.finish := by
  simp only [drive, h]

/-- A run ends with the fault of an event. -/
theorem drive_fail {p next : Progress} {stop : Bool} {e : Event} {fault : StreamFault}
    (h : p.advance stop e = .fail fault next) (rest : List Event) :
    p.drive stop (e :: rest) = next.fail fault := by
  simp only [drive, h]

end Progress

end Gherkin
