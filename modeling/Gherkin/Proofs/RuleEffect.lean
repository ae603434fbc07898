/-
  Gherkin.Proofs.RuleEffect
  ─────────────────────────
  **WHAT A RULE DOES TO A BUILDER.**

  A caller opens a rule, files whatever belongs to it and closes it.  Calls in
  between may report faults, and the caller carries on.  For a builder in any
  state with an innermost node, and without any condition on columns:

    • `Balanced`                   — runs that close what they open, and
      nothing else; a closing may name any rule type,
    • `Builder.carryOn_balanced`   — such a run only adds to the innermost
      node and to the comments,
    • `closing_files_at_most_once` — so a whole rule files one value or none
      on that node, depending on how its closing ends.
-/
import Gherkin.Proofs.Closing

namespace Gherkin

/-! ## §1. Calls that may fail. -/

/-- Handles one call: what it reports, and the builder after that.  Which rule type a closing
names is of no account. -/
def Builder.handle (b : Builder) : Event → Except BuilderFault Unit × Builder
  | .leaf token _ =>
    match b.accept token with
    | .ok after => (.ok (), after)
    | .error cause => (.error (.underflow cause), b)
  | .opening type _ => (.ok (), b.openRule type)
  | .closing _ _ => (b.closeRule.1.map fun _ => (), b.closeRule.2)

/-- Handles all calls, whatever they report. -/
def Builder.carryOn (b : Builder) (calls : List Event) : Builder :=
  calls.foldl (fun b call => (b.handle call).2) b

/-- The comments among the tokens of a run. -/
def Event.comments (calls : List Event) : List Comment :=
  calls.flatMap fun
    | .leaf token _ => token.comment?.toList
    | _ => []

/-- Runs that close whatever they open and nothing else, with the tokens that they read outside
all of these rules. -/
inductive Balanced : List Event → List Token → Prop
  | nil : Balanced [] []
  | leaf (token : Token) (spare : Option RuleType) {rest : List Event} {own : List Token} :
      Balanced rest own → Balanced (.leaf token spare :: rest) (token :: own)
  | rule (type named : RuleType) (spare spare' : Option Token) {inner rest : List Event}
      {inside own : List Token} :
      Balanced inner inside → Balanced rest own →
      Balanced (.opening type spare :: (inner ++ .closing named spare' :: rest)) own

namespace Builder

theorem carryOn_cons (b : Builder) (call : Event) (rest : List Event) :
    b.carryOn (call :: rest) = (b.handle call).2.carryOn rest := rfl

theorem carryOn_append (b : Builder) (first second : List Event) :
    b.carryOn (first ++ second) = (b.carryOn first).carryOn second :=
  List.foldl_append

theorem handle_leaf {b : Builder} {n : Node} {outer : List Node} (h : b.stack = n :: outer)
    (t : Token) (spare : Option RuleType) :
    b.handle (.leaf t spare) = (.ok (), { b with comments := b.comments ++ t.comment?.toList
                                                 stack := n.addAll t.arrival :: outer }) := by
  unfold handle
  simp only [accept_eq h]

theorem handle_closing {b : Builder} {n m : Node} {outer : List Node}
    (h : b.stack = n :: m :: outer) (named : RuleType) (spare : Option Token) :
    b.handle (.closing named spare) =
      ((verdict (n.assemble b.source)).map fun _ => (),
        { b with stack := m.addAll (n.arrival b.source) :: outer }) := by
  unfold handle
  simp only [closeRule_eq h]

/-- Opening a rule and carrying on with a run that leaves the nodes below it alone. -/
theorem carryOn_opening {b : Builder} {n top : Node} {outer : List Node} {r : RuleType}
    {run : List Event} (hb : b.stack = top :: outer)
    (hrun : (b.openRule r).carryOn run = { b.openRule r with
      comments := b.comments ++ Event.comments run, stack := n :: b.stack })
    (spare : Option Token) :
    b.carryOn (.opening r spare :: run) = { b with
      comments := b.comments ++ Event.comments run, stack := n :: top :: outer } := by
  rw [carryOn_cons]
  show (b.openRule r).carryOn run = _
  rw [hrun, hb]
  rfl

end Builder

/-! ## §2. Balanced runs. -/

/-- **A balanced run** only adds to the innermost node and to the comments. -/
theorem Builder.carryOn_balanced {run : List Event} {own : List Token} (h : Balanced run own) :
    ∀ {b : Builder} {n : Node} {outer : List Node}, b.stack = n :: outer →
      ∃ arrivals, b.carryOn run = { b with comments := b.comments ++ Event.comments run
                                           stack := n.addAll arrivals :: outer }
        ∧ ∀ k, k ≠ .comment → Node.broughtTokens k arrivals = own.filter (·.type = k) := by
  induction h with
  | nil =>
      intro b n outer hb
      refine ⟨[], ?_, fun k _ => rfl⟩
      show b = { b with comments := b.comments ++ [], stack := n :: outer }
      rw [List.append_nil, ← hb]
  | leaf t spare _ ih =>
      intro b n outer hb
      rw [carryOn_cons, handle_leaf hb]
      obtain ⟨arrivals, hrun, htokens⟩ :=
        ih (b := { b with comments := b.comments ++ t.comment?.toList
                          stack := n.addAll t.arrival :: outer }) rfl
      refine ⟨t.arrival ++ arrivals, ?_, ?_⟩
      · rw [hrun, Node.addAll_append]
        simp only [Event.comments, List.flatMap_cons, List.append_assoc]
      · intro k hk
        rw [Node.broughtTokens_append, htokens k hk, Token.broughtTokens_arrival hk]
        by_cases h : t.type = k <;> simp [h]
  | @rule type named spare spare' inner rest _ _ _ _ ihinner ihrest =>
      intro b n outer hb
      -- the inner run on an empty node, then the closing of that node
      obtain ⟨inside, hinner, -⟩ := ihinner (stack_openRule type b)
      set opened : Builder := { b with comments := b.comments ++ Event.comments inner
                                       stack := (Node.empty type).addAll inside :: n :: outer }
      have hopened : b.carryOn (.opening type spare :: inner) = opened :=
        carryOn_opening hb hinner spare
      have hclosing := handle_closing (b := opened) rfl named spare'
      set filed := ((Node.empty type).addAll inside).arrival opened.source
      obtain ⟨arrivals, hrun, htokens⟩ :=
        ihrest (b := { opened with stack := n.addAll filed :: outer }) rfl
      refine ⟨filed ++ arrivals, ?_, ?_⟩
      · rw [← List.cons_append, carryOn_append, carryOn_cons, hopened, hclosing, hrun,
          Node.addAll_append]
        simp only [Event.comments, List.flatMap_cons, List.flatMap_append, List.nil_append,
          ← List.append_assoc]
        rfl
      · intro k hk
        rw [Node.broughtTokens_append, htokens k hk, Node.broughtTokens_arrival, List.nil_append]

/-! ## §3. A whole rule. -/

/-- **A whole rule files one value or none** on the node below it, and leaves every other node as
it was.  It files the value that its node stands for; of a ragged table, the table with all its
rows; and nothing when a value is refused.  Comments read on the way follow those from before. -/
theorem closing_files_at_most_once {b : Builder} {top : Node} {outer : List Node}
    (hb : b.stack = top :: outer) {run : List Event} {own : List Token} (hrun : Balanced run own)
    (r named : RuleType) (spare spare' : Option Token) :
    ∃ (n : Node) (filed : Option Value),
      (b.carryOn (.opening r spare :: run)).stack = n :: top :: outer ∧ n.type = r
        ∧ (∀ k, k ≠ .comment → n.tokens k = own.filter (·.type = k))
        ∧ ((b.carryOn (.opening r spare :: run)).handle (.closing named spare')).2 =
            { b with
              comments := b.comments ++ Event.comments run
              stack := (match filed with | some v => top.add r v | none => top) :: outer }
        ∧ match ((b.carryOn (.opening r spare :: run)).handle (.closing named spare')).1 with
          | .ok () =>
            ∃ v, filed = some v
              ∧ n.assemble (b.carryOn (.opening r spare :: run)).source = .ok v
          | .error (.ragged table) =>
            filed = some table.kept
              ∧ ∃ first rest, (own.filter (·.type = .tableRow)).mapM TableRow.ofToken
                    = .ok (first :: rest)
                ∧ ((r = .dataTable
                    ∧ table.kept = .element (.dataTable ⟨first.location, first :: rest⟩))
                  ∨ (r = .examplesTable ∧ table.kept = .ofRows (first :: rest)))
          | .error (.rejected _) => filed = none
          | .error (.underflow _) => False := by
  obtain ⟨arrivals, hinner, htokens⟩ := Builder.carryOn_balanced hrun (Builder.stack_openRule r b)
  have hopened := Builder.carryOn_opening hb hinner spare
  set n := (Node.empty r).addAll arrivals with hn
  have htype : n.type = r := Node.type_addAll arrivals (.empty r)
  have hown : ∀ k, k ≠ .comment → n.tokens k = own.filter (·.type = k) := by
    intro k hk
    rw [hn, Node.tokens_addAll, htokens k hk]
    rfl
  rw [hopened]
  set before : Builder := { b with comments := b.comments ++ Event.comments run
                                   stack := n :: top :: outer } with hbefore
  have hclosing := Builder.handle_closing (b := before) rfl named spare'
  -- what arrives at the top node is what the closed node leaves behind, if anything
  refine ⟨n, n.filed? before.source, rfl, htype, hown, ?_, ?_⟩
  · rw [hclosing]
    show { b with comments := _, stack := top.addAll (n.arrival before.source) :: outer } = _
    unfold Node.arrival
    rw [htype]
    cases n.filed? before.source <;> rfl
  · rw [hclosing]
    cases hout : n.assemble before.source with
    | ok v => exact ⟨v, Node.filed?_of_ok hout, rfl⟩
    | error fault =>
        cases fault with
        | rejected x => exact Node.filed?_of_rejected hout
        | ragged l kept =>
            obtain ⟨first, rest, hrows, hkept⟩ := Node.kept_of_ragged hout
            rw [hown .tableRow (by decide)] at hrows
            rw [htype] at hkept
            exact ⟨Node.filed?_of_ragged hout, first, rest, hrows, hkept⟩

/-- Two rows of different lengths, a comment between them, and a step with a wrong closing. -/
def raggedCalls : List Event :=
  [ .leaf { type := .tableRow, location := ⟨1, 1⟩, items := [⟨3, "a"⟩, ⟨7, "b"⟩] } none,
    .leaf { type := .comment, location := ⟨2, 1⟩, text := "# between" } none,
    .opening .step none,
    .closing .feature none,
    .leaf { type := .tableRow, location := ⟨3, 1⟩, items := [⟨3, "c"⟩] } none ]

theorem closing_raggedCalls :
    let b := (Builder.new "").openRule .step
    let own : List Token :=
      [ { type := .tableRow, location := ⟨1, 1⟩, items := [⟨3, "a"⟩, ⟨7, "b"⟩] },
        { type := .comment, location := ⟨2, 1⟩, text := "# between" },
        { type := .tableRow, location := ⟨3, 1⟩, items := [⟨3, "c"⟩] } ]
    b.stack = [.empty .step, .empty .root] ∧ Balanced raggedCalls own
      ∧ ((b.carryOn (.opening .dataTable none :: raggedCalls)).handle (.closing .rule none)).2 =
          { b with
            comments := [⟨⟨2, 1⟩, "# between"⟩]
            stack :=
              [ (Node.empty .step).add .dataTable (.element (.dataTable ⟨⟨1, 1⟩,
                  [ ⟨⟨1, 1⟩, [⟨⟨1, 3⟩, "a"⟩, ⟨⟨1, 7⟩, "b"⟩]⟩,
                    ⟨⟨3, 1⟩, [⟨⟨3, 3⟩, "c"⟩]⟩ ]⟩)),
                .empty .root ] } := by
  intro b own
  have hrun : Balanced raggedCalls own :=
    .leaf _ _ (.leaf _ _ (.rule _ _ _ _ .nil (.leaf _ _ .nil)))
  have hstack : b.stack = .empty .step :: [.empty .root] := rfl
  obtain ⟨n, filed, -, -, -, hafter, hexit⟩ :=
    closing_files_at_most_once hstack hrun .dataTable .rule none none
  refine ⟨hstack, hrun, ?_⟩
  rw [hafter, hexit.1]
  rfl

end Gherkin
