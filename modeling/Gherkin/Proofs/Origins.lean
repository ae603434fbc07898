/-
  Gherkin.Proofs.Origins
  ──────────────────────
  **WHAT AN ELEMENT TAKES FROM THE TOKENS.**

  Streams may nest rules in any way, repeat them or put them where nobody
  reads them.  Whatever they do, a token gives rise to an element at most
  once.  The argument keeps accounts: `Value.origins` is the multiset of what
  the tokens in a value have brought and the elements in it have taken.

    • `Node.sum_under_le`           — different categories of a node share
      nothing,
    • `Node.Promised.origins_filed` — so what is filed for a closed rule takes
      nothing twice, and nothing that its node does not hold.
-/
import Gherkin.Proofs.Faithful
import Gherkin.Proofs.Invariants
import Mathlib.Algebra.BigOperators.Group.List.Basic
import Mathlib.Algebra.Order.Group.Multiset
import Mathlib.Data.Multiset.Filter
import Mathlib.Tactic.Abel

namespace Gherkin

/-! ## §1. Origins. -/

/-- What a token can give rise to, once: the line of an element, a row, a tag, a doc string. -/
inductive Origin where
  | line (type : TokenType) (location : Location) (keyword text : String)
  | row (location : Location) (cells : List (Int × String))
  | tag (line : UInt32) (column : Int) (name : String)
  | docString (location : Location) (delimiter contentType : String)
  deriving DecidableEq

/-- The cells of a row as columns and texts. -/
def TableRow.entries (r : TableRow) : List (Int × String) :=
  r.cells.map fun c => (positionValue c.location.column, c.value)

/-- The items of a token as columns and texts. -/
def Token.entries (t : Token) : List (Int × String) := t.items.map fun i => (i.column, i.text)

/-- The origin of what a mark says; languages and descriptions are not counted. -/
def Mark.origin? : Mark → Option Origin
  | .line type location keyword text => some (.line type location keyword text)
  | .tag t => some (.tag t.location.line (positionValue t.location.column) t.name)
  | .row r => some (.row r.location r.entries)
  | .docString location delimiter contentType _ => some (.docString location delimiter contentType)
  | _ => none

/-- The origins of marks. -/
def Mark.origins (ms : List Mark) : Multiset Origin := ms.filterMap Mark.origin?

/-- What a token can give rise to. -/
def Token.origins (t : Token) : List Origin :=
  match t.type with
  | .featureLine | .ruleLine | .backgroundLine | .scenarioLine | .examplesLine | .stepLine =>
    [.line t.type t.location t.keyword t.text]
  | .tagLine => t.items.map fun i => .tag t.location.line i.column i.text
  | .tableRow => [.row t.location t.entries]
  | .docStringSeparator => [.docString t.location t.keyword t.text]
  | _ => []

/-- The origins of an element. -/
def Element.origins : Element → Multiset Origin
  | .tableRow r => Mark.origins [.row r]
  | .dataTable t => Mark.origins t.marks
  | .docString d => Mark.origins d.marks
  | .step s => Mark.origins s.marks
  | .examples e => Mark.origins e.marks
  | .scenario s => Mark.origins s.marks
  | .background b => Mark.origins b.marks
  | .rule r => Mark.origins r.marks
  | .feature f => Mark.origins f.marks
  | .document d => Mark.origins d.marks
  | _ => 0

mutual

/-- The origins of a value: of all tokens and elements in it, however deep they lie. -/
def Value.origins : Value → Multiset Origin
  | .token t => t.origins
  | .element e => e.origins
  | .list items => Value.originsAll items
  | .node _ children => Value.originsGroups children
  | _ => 0

/-- The origins of values side by side. -/
def Value.originsAll : List Value → Multiset Origin
  | [] => 0
  | v :: rest => v.origins + Value.originsAll rest

/-- The origins of a grouping. -/
def Value.originsGroups : List (RuleType × List Value) → Multiset Origin
  | [] => 0
  | (_, values) :: rest => Value.originsAll values + Value.originsGroups rest

end

/-- The origins of a node: of all that is filed in it. -/
def Node.origins (n : Node) : Multiset Origin := Value.originsGroups n.children

/-- The origins of what is filed in a node under one category. -/
def Node.under (c : RuleType) (n : Node) : Multiset Origin := Value.originsAll (n.items c)

namespace Mark

@[simp] theorem origins_nil : origins [] = 0 := rfl

@[simp] theorem origins_append (ms ns : List Mark) :
    origins (ms ++ ns) = origins ms + origins ns := by
  unfold origins
  rw [List.filterMap_append, Multiset.coe_add]

theorem origins_cons (m : Mark) (ms : List Mark) : origins (m :: ms) = origins [m] + origins ms :=
  origins_append [m] ms

@[simp] theorem origins_describe (text : String) : origins (describe text) = 0 := by
  by_cases h : text = ""
  · rw [describe, if_pos h, origins_nil]
  · rw [describe, if_neg h]
    rfl

end Mark

namespace Value

@[simp] theorem originsAll_append (vs ws : List Value) :
    originsAll (vs ++ ws) = originsAll vs + originsAll ws := by
  induction vs with
  | nil => exact (zero_add _).symm
  | cons v rest ih =>
      show v.origins + originsAll (rest ++ ws) = v.origins + originsAll rest + originsAll ws
      rw [ih, add_assoc]

/-- A value has a share in the origins of the list it is in. -/
theorem origins_le_of_mem {v : Value} {vs : List Value} (h : v ∈ vs) :
    v.origins ≤ originsAll vs := by
  obtain ⟨front, later, rfl⟩ := List.append_of_mem h
  rw [originsAll_append]
  exact (Multiset.le_add_right _ _).trans (Multiset.le_add_left _ _)

/-- The elements that are read from a list take no more than there is in it. -/
theorem origins_filterMap_le {α : Type} {read : Value → Option α} {wrap : α → Element}
    (hread : Reads read wrap) {marks : α → List Mark}
    (hmarks : ∀ a, Mark.origins (marks a) = (wrap a).origins) (vs : List Value) :
    Mark.origins ((vs.filterMap read).flatMap marks) ≤ originsAll vs := by
  induction vs with
  | nil => exact le_refl 0
  | cons v rest ih =>
      cases hv : read v with
      | none =>
          rw [List.filterMap_cons_none hv]
          exact ih.trans (Multiset.le_add_left _ _)
      | some a =>
          obtain rfl := (hread v a).1 hv
          rw [List.filterMap_cons_some hv, List.flatMap_cons, Mark.origins_append, hmarks]
          exact add_le_add_right ih _

end Value

/-! ## §2. What a node holds. -/

namespace Node

variable {n : Node}

@[simp] theorem origins_empty (type : RuleType) : (empty type).origins = 0 := rfl

/-- One more value under a category. -/
theorem origins_add (n : Node) (c : RuleType) (v : Value) :
    (n.add c v).origins = n.origins + v.origins := by
  unfold origins add
  show Value.originsGroups (Grouped.add c v n.children) = _
  induction n.children with
  | nil =>
      show v.origins + 0 + 0 = 0 + v.origins
      abel
  | cons g rest ih =>
      obtain ⟨k, values⟩ := g
      unfold Grouped.add
      split
      · show Value.originsAll (values ++ [v]) + Value.originsGroups rest
          = Value.originsAll values + Value.originsGroups rest + v.origins
        rw [Value.originsAll_append]
        show Value.originsAll values + (v.origins + 0) + Value.originsGroups rest = _
        abel
      · show Value.originsAll values + Value.originsGroups (Grouped.add c v rest)
          = Value.originsAll values + Value.originsGroups rest + v.origins
        rw [ih, add_assoc]

theorem origins_addAll (arrivals : List (RuleType × Value)) (n : Node) :
    (n.addAll arrivals).origins = n.origins + Value.originsAll (arrivals.map Prod.snd) := by
  induction arrivals generalizing n with
  | nil => exact (add_zero _).symm
  | cons a rest ih =>
      rw [addAll_cons, ih, origins_add, add_assoc]
      rfl

/-- One function in place of another at a single element of a list without doubles. -/
theorem sum_ite_le {κ : Type} [DecidableEq κ] (k : κ) (own : Multiset Origin)
    (f : κ → Multiset Origin) {cs : List κ} (h : cs.Nodup) :
    (cs.map fun c => if k = c then own else f c).sum ≤ own + (cs.map f).sum := by
  induction cs with
  | nil => exact Multiset.zero_le _
  | cons c rest ih =>
      obtain ⟨hc, hrest⟩ := List.nodup_cons.1 h
      rw [List.map_cons, List.map_cons, List.sum_cons, List.sum_cons]
      by_cases hk : k = c
      · -- the element is found here, and nowhere else
        subst hk
        have hothers : rest.map (fun c => if k = c then own else f c) = rest.map f := by
          apply List.map_congr_left
          intro c' hc'
          rw [if_neg fun heq : k = c' => hc (heq ▸ hc')]
        rw [if_pos rfl, hothers]
        exact add_le_add_right (Multiset.le_add_left _ _) _
      · rw [if_neg hk]
        calc f c + (rest.map fun c => if k = c then own else f c).sum
            ≤ f c + (own + (rest.map f).sum) := add_le_add_right (ih hrest) _
          _ = own + (f c + (rest.map f).sum) := add_left_comm _ _ _

/-- **Different categories of a node share nothing.** -/
theorem sum_under_le (n : Node) {cs : List RuleType} (h : cs.Nodup) :
    (cs.map fun c => n.under c).sum ≤ n.origins := by
  unfold under origins items
  induction n.children with
  | nil =>
      show (cs.map fun _ => (0 : Multiset Origin)).sum ≤ 0
      rw [List.map_const', List.sum_replicate, nsmul_zero]
  | cons g rest ih =>
      obtain ⟨k, values⟩ := g
      have hsplit : (fun c => Value.originsAll (Grouped.items c ((k, values) :: rest)))
          = fun c => if k = c then Value.originsAll values
            else Value.originsAll (Grouped.items c rest) := by
        funext c
        by_cases hk : k = c
        · rw [if_pos hk, Grouped.items, if_pos hk]
        · rw [if_neg hk, Grouped.items, if_neg hk]
      rw [hsplit]
      exact (sum_ite_le k _ _ h).trans (add_le_add_right ih _)

theorem under_le (n : Node) (c : RuleType) : n.under c ≤ n.origins := by
  have h := n.sum_under_le (List.nodup_singleton c)
  rwa [List.map_singleton, List.sum_singleton] at h

theorem first?_origins {c : RuleType} {v : Value} (h : n.first? c = some v) :
    v.origins ≤ n.under c :=
  Value.origins_le_of_mem (List.mem_of_mem_head? h)

theorem node?_origins {c : RuleType} {m : Node} (h : n.node? c = some m) :
    m.origins ≤ n.under c :=
  first?_origins (node?_eq_some_iff.1 h)

theorem token?_origins {k : TokenType} {t : Token} (h : n.token? k = some t) :
    (t.origins : Multiset Origin) ≤ n.under (.leaf k) :=
  first?_origins (token?_eq_some_iff.1 h)

/-- The tokens of a category take no more than there is in it. -/
theorem tokens_origins (n : Node) (k : TokenType) :
    ((n.tokens k).flatMap Token.origins : Multiset Origin) ≤ n.under (.leaf k) := by
  unfold tokens under
  induction n.items (.leaf k) with
  | nil => exact le_refl 0
  | cons v rest ih =>
      cases hv : v.token? with
      | none =>
          rw [List.filterMap_cons_none hv]
          exact ih.trans (Multiset.le_add_left _ _)
      | some t =>
          obtain rfl : v = .token t := by
            cases v with
            | token u => exact congrArg Value.token (Option.some.inj hv)
            | _ => cases hv
          rw [List.filterMap_cons_some hv, List.flatMap_cons, ← Multiset.coe_add]
          exact add_le_add_right ih _

/-- The element that is read from the first value of a category takes no more than there is. -/
theorem bind_first?_origins {α : Type} {read : Value → Option α} {wrap : α → Element}
    (hread : Value.Reads read wrap) {marks : α → List Mark}
    (hmarks : ∀ a, Mark.origins (marks a) = (wrap a).origins) (n : Node) (c : RuleType) :
    Mark.origins (((n.first? c).bind read).toList.flatMap marks) ≤ n.under c := by
  cases ho : (n.first? c).bind read with
  | none => exact Multiset.zero_le _
  | some a =>
      have hone : (some a).toList.flatMap marks = marks a := List.append_nil _
      rw [hone, hmarks]
      exact first?_origins (hread.bind_eq_some_iff.1 ho)

end Node

/-! ## §3. Tokens in their categories. -/

/-- A line that starts with a keyword gives rise to the element that it introduces. -/
theorem Token.origins_line {t : Token} (h : t.type ∈ TokenType.keywordLines) :
    t.origins = [.line t.type t.location t.keyword t.text] := by
  unfold origins
  unfold TokenType.keywordLines at h
  cases htype : t.type <;> simp_all

theorem Location.onLine_eq_ok {line : UInt32} {column : Int} {l : Location}
    (h : Location.onLine line column = .ok l) :
    l.line = line ∧ positionValue l.column = column := by
  unfold onLine at h
  cases hcolumn : position column with
  | error cause =>
      rw [hcolumn] at h
      cases h
  | ok c =>
      rw [hcolumn] at h
      cases h
      exact ⟨rfl, (position_eq_ok_iff.1 hcolumn).symm⟩

/-- A step that has succeeded for all elements of a list, seen through what it keeps. -/
theorem map_eq_of_mapM_eq_ok {ε α β γ : Type} {f : α → Except ε β} {seen : β → γ} {kept : α → γ}
    (hf : ∀ a b, f a = .ok b → seen b = kept a) {l : List α} {bs : List β}
    (h : l.mapM f = .ok bs) : bs.map seen = l.map kept := by
  induction l generalizing bs with
  | nil =>
      cases h
      rfl
  | cons a rest ih =>
      rw [List.mapM_cons] at h
      cases ha : f a with
      | error x =>
          rw [ha] at h
          cases h
      | ok b =>
          cases hrest : rest.mapM f with
          | error x =>
              rw [ha, hrest] at h
              cases h
          | ok others =>
              rw [ha, hrest] at h
              cases h
              rw [List.map_cons, List.map_cons, hf a b ha, ih hrest]

/-- The row for a token has its place and its items. -/
theorem TableRow.entries_of_ofToken {t : Token} {r : TableRow} (h : TableRow.ofToken t = .ok r) :
    Origin.row r.location r.entries = .row t.location t.entries := by
  obtain ⟨cells, hcells, rfl⟩ := Except.exists_of_map_eq_ok h
  have hentries : cells.map (fun c => (positionValue c.location.column, c.value))
      = t.items.map fun i => (i.column, i.text) := by
    refine map_eq_of_mapM_eq_ok ?_ hcells
    intro i c hc
    obtain ⟨l, hl, rfl⟩ := Except.exists_of_map_eq_ok hc
    exact congrArg (·, i.text) (Location.onLine_eq_ok hl).2
  exact congrArg (Origin.row t.location) hentries

/-- The tag for an item has its line, its column and its text. -/
theorem Tag.origin_of_tagOfItem {line : UInt32} {i : Item} {tag : Tag}
    (h : Node.tagOfItem line i = .ok tag) :
    Origin.tag tag.location.line (positionValue tag.location.column) tag.name
      = .tag line i.column i.text := by
  obtain ⟨l, hl, rfl⟩ := Except.exists_of_map_eq_ok h
  obtain ⟨hline, hcolumn⟩ := Location.onLine_eq_ok hl
  show Origin.tag l.line (positionValue l.column) i.text = _
  rw [hline, hcolumn]

theorem Mark.origins_rows (rows : List TableRow) :
    Mark.origins (rows.map .row) = rows.map fun r => Origin.row r.location r.entries := by
  unfold Mark.origins
  rw [List.filterMap_map, ← List.filterMap_eq_map']
  rfl

theorem Value.origins_ofRows (rows : List TableRow) :
    (Value.ofRows rows).origins = Mark.origins (rows.map .row) := by
  show Value.originsAll (rows.map fun r => .element (.tableRow r)) = _
  induction rows with
  | nil => rfl
  | cons r rest ih =>
      rw [List.map_cons, List.map_cons, Mark.origins_cons, ← ih]
      rfl

theorem Mark.origins_tags (tags : List Tag) :
    Mark.origins (tags.map .tag) = tags.map fun t =>
      Origin.tag t.location.line (positionValue t.location.column) t.name := by
  unfold Mark.origins
  rw [List.filterMap_map, ← List.filterMap_eq_map']
  rfl

namespace Node

variable {P : Token → Prop} {n : Node} (h : n.Promised P)
include h

/-- The first token of a category is of its type. -/
theorem Promised.type_token? {k : TokenType} {t : Token} (ht : n.token? k = some t) :
    t.type = k :=
  (RuleType.leaf.inj (h.first (token?_eq_some_iff.1 ht)).1).symm

/-- The line of an element. -/
theorem Promised.line_origins {k : TokenType} (hk : k ∈ TokenType.keywordLines) {t : Token}
    (ht : n.token? k = some t) :
    Mark.origins [.line k t.location t.keyword t.text] ≤ n.under (.leaf k) := by
  have horigins := token?_origins ht
  have htype := h.type_token? ht
  rw [Token.origins_line (htype ▸ hk), htype] at horigins
  exact horigins

/-- The rows of a table. -/
theorem Promised.rows_origins {rows : List TableRow}
    (hrows : (n.tokens .tableRow).mapM TableRow.ofToken = .ok rows) :
    Mark.origins (rows.map .row) ≤ n.under (.leaf .tableRow) := by
  have htokens : (n.tokens .tableRow).flatMap Token.origins
      = (n.tokens .tableRow).flatMap fun t => [Origin.row t.location t.entries] := by
    apply List.flatMap_congr
    intro t ht
    simp only [Token.origins, (h.tokens t ht).1]
  rw [Mark.origins_rows, map_eq_of_mapM_eq_ok (fun _ _ => TableRow.entries_of_ofToken) hrows,
    List.map_eq_flatMap, ← htokens]
  exact n.tokens_origins .tableRow

/-- The tags of a node. -/
theorem Promised.tags_origins {tags : List Tag} (htags : n.tags = .ok tags) :
    Mark.origins (tags.map .tag) ≤ n.under .tags := by
  unfold Node.tags at htags
  cases hn : n.node? .tags with
  | none =>
      rw [hn] at htags
      cases htags
      exact Multiset.zero_le _
  | some tagsNode =>
      rw [hn] at htags
      have htokens : (tagsNode.tokens .tagLine).flatMap Token.origins
          = (tagItems (tagsNode.tokens .tagLine)).map fun p =>
              Origin.tag p.1 p.2.column p.2.text := by
        unfold tagItems
        rw [List.map_flatMap]
        apply List.flatMap_congr
        intro t ht
        simp only [Token.origins, ((h.node hn).tokens t ht).1, List.map_map]
        rfl
      have hsame : (tags.map fun t =>
          Origin.tag t.location.line (positionValue t.location.column) t.name)
            = (tagItems (tagsNode.tokens .tagLine)).map fun p =>
                Origin.tag p.1 p.2.column p.2.text :=
        map_eq_of_mapM_eq_ok (fun _ _ => Tag.origin_of_tagOfItem) htags
      rw [Mark.origins_tags, hsame, ← htokens]
      exact (tagsNode.tokens_origins .tagLine).trans
        ((tagsNode.under_le _).trans (node?_origins hn))

/-- What a rule takes from the inner node that has its line. -/
theorem Promised.introduced_origins {c : RuleType} {k : TokenType} {inner : Node} {line : Token}
    (hi : n.introduced? c k = some (inner, line)) :
    inner.origins ≤ n.under c ∧ inner.token? k = some line ∧ inner.Promised P := by
  obtain ⟨hinner, hline⟩ := introduced?_eq_some_iff.1 hi
  exact ⟨node?_origins hinner, hline, h.introduced hi⟩

end Node

/-! ## §4. Closing a rule. -/

namespace Node

variable {P : Token → Prop} {n : Node}

theorem steps_origins (n : Node) : Mark.origins (n.steps.flatMap Step.marks) ≤ n.under .step :=
  Value.origins_filterMap_le Value.reads_step? (fun _ => rfl) _

theorem examples_origins (n : Node) :
    Mark.origins (n.examples.flatMap Examples.marks) ≤ n.under .examplesDefinition :=
  Value.origins_filterMap_le Value.reads_examples? (fun _ => rfl) _

theorem scenarios_origins (n : Node) :
    Mark.origins (n.scenarios.flatMap Scenario.marks) ≤ n.under .scenarioDefinition :=
  Value.origins_filterMap_le Value.reads_scenario? (fun _ => rfl) _

theorem rules_origins (n : Node) : Mark.origins (n.rules.flatMap Rule.marks) ≤ n.under .rule :=
  Value.origins_filterMap_le Value.reads_rule? (fun _ => rfl) _

theorem background?_origins (n : Node) :
    Mark.origins (n.background?.toList.flatMap Background.marks) ≤ n.under .background :=
  bind_first?_origins Value.reads_background? (fun _ => rfl) n .background

/-- Two categories of a node. -/
theorem under_add_le (n : Node) {c d : RuleType} (h : c ≠ d) :
    n.under c + n.under d ≤ n.origins := by
  have hnodup : [c, d].Nodup := by simpa using h
  have hsum := n.sum_under_le hnodup
  simpa only [List.map_cons, List.map_nil, List.sum_cons, List.sum_nil, add_zero] using hsum

/-- Three categories of a node. -/
theorem under_add_add_le (n : Node) {c d e : RuleType} (h : [c, d, e].Nodup) :
    n.under c + (n.under d + n.under e) ≤ n.origins := by
  have hsum := n.sum_under_le h
  simpa only [List.map_cons, List.map_nil, List.sum_cons, List.sum_nil, add_zero] using hsum

/-- A step takes its line, and at most one of its arguments. -/
theorem Promised.step_origins (h : n.Promised P) {s : Step} (hs : Step.ofNode? n = some s) :
    Mark.origins s.marks ≤ n.origins := by
  obtain ⟨line, hline, rfl⟩ := Option.map_eq_some_iff.1 hs
  have htable : Mark.origins (((n.first? .dataTable).bind Value.dataTable?).toList.flatMap
      DataTable.marks) ≤ n.under .dataTable :=
    bind_first?_origins Value.reads_dataTable? (fun _ => rfl) n .dataTable
  have hdocString : Mark.origins ((if ((n.first? .dataTable).bind Value.dataTable?).isSome then none
      else (n.first? .docString).bind Value.docString?).toList.flatMap DocString.marks)
        ≤ n.under .docString := by
    split
    · exact Multiset.zero_le _
    · exact bind_first?_origins Value.reads_docString? (fun _ => rfl) n .docString
  unfold Step.marks
  rw [Mark.origins_cons, Mark.origins_append]
  exact (add_le_add (h.line_origins (by decide) hline) (add_le_add htable hdocString)).trans
    (n.under_add_add_le (by decide))

/-- A doc string takes its separator. -/
theorem Promised.docString_origins (h : n.Promised P) {d : DocString}
    (hd : DocString.ofNode? n = some d) : Mark.origins d.marks ≤ n.origins := by
  obtain ⟨separator, hseparator, rfl⟩ := Option.map_eq_some_iff.1 hd
  have horigins := token?_origins hseparator
  simp only [Token.origins, h.type_token? hseparator] at horigins
  exact horigins.trans (n.under_le _)

/-- A background takes its line and its steps. -/
theorem Promised.background_origins (h : n.Promised P) {b : Background}
    (hb : Background.ofNode? n = some b) : Mark.origins b.marks ≤ n.origins := by
  obtain ⟨line, hline, rfl⟩ := Option.map_eq_some_iff.1 hb
  unfold Background.marks
  rw [Mark.origins_cons, Mark.origins_append, Mark.origins_describe, zero_add]
  exact (add_le_add (h.line_origins (by decide) hline) n.steps_origins).trans
    (n.under_add_le nofun)

/-- A scenario takes its tags from the definition, and the rest from the node inside. -/
theorem Promised.scenario_origins (h : n.Promised P) {o : Option Scenario}
    (ho : Scenario.ofNode n = .ok o) : ∀ s ∈ o, Mark.origins s.marks ≤ n.origins := by
  unfold Scenario.ofNode at ho
  split at ho
  · cases ho
    nofun
  next inner line hintro =>
    obtain ⟨hle, hline, hinner⟩ := h.introduced_origins hintro
    obtain ⟨tags, htags, rfl⟩ := Except.exists_of_map_eq_ok ho
    rintro s ⟨⟩
    unfold Scenario.marks
    rw [Mark.origins_append, Mark.origins_cons, Mark.origins_append, Mark.origins_append,
      Mark.origins_describe, zero_add]
    have hrest := (add_le_add (hinner.line_origins (by decide) hline)
      (add_le_add inner.steps_origins inner.examples_origins)).trans
        (inner.under_add_add_le (by decide))
    exact (add_le_add (h.tags_origins htags) (hrest.trans hle)).trans (n.under_add_le nofun)

/-- The table of an examples section. -/
theorem Promised.splitTable_origins (h : n.Promised P) {header : Option TableRow}
    {body : List TableRow}
    (hsplit : Examples.splitTable (n.first? .examplesTable) = .ok (header, body)) :
    Mark.origins ((header.toList ++ body).map .row) ≤ n.under .examplesTable := by
  cases hv : n.first? .examplesTable with
  | none =>
      rw [hv] at hsplit
      cases hsplit
      exact Multiset.zero_le _
  | some v =>
      obtain ⟨rows, rfl⟩ := h.examplesTable hv
      rw [hv, Examples.splitTable_ofRows] at hsplit
      cases hsplit
      have hrows : rows.head?.toList ++ rows.tail = rows := by cases rows <;> rfl
      rw [hrows]
      exact (Value.origins_ofRows rows).ge.trans (first?_origins hv)

/-- An examples section takes its tags from the definition, and the rest from the node inside. -/
theorem Promised.examples_origins (h : n.Promised P) {o : Option Examples}
    (ho : Examples.ofNode n = .ok o) : ∀ e ∈ o, Mark.origins e.marks ≤ n.origins := by
  unfold Examples.ofNode at ho
  split at ho
  · cases ho
    nofun
  next inner line hintro =>
    obtain ⟨hle, hline, hinner⟩ := h.introduced_origins hintro
    cases htags : n.tags with
    | error r =>
        simp only [htags] at ho
        cases ho
    | ok tags =>
        cases hsplit : Examples.splitTable (inner.first? .examplesTable) with
        | error issues =>
            simp only [htags, hsplit] at ho
            cases ho
        | ok split =>
            obtain ⟨header, body⟩ := split
            simp only [htags, hsplit] at ho
            cases ho
            rintro e ⟨⟩
            unfold Examples.marks
            rw [Mark.origins_append, Mark.origins_cons, Mark.origins_append,
              Mark.origins_describe, zero_add]
            have hrest := (add_le_add (hinner.line_origins (by decide) hline)
              (hinner.splitTable_origins hsplit)).trans (inner.under_add_le nofun)
            exact (add_le_add (h.tags_origins htags) (hrest.trans hle)).trans
              (n.under_add_le nofun)

/-- A rule takes its line from its header, and its children from its node. -/
theorem Promised.rule_origins (h : n.Promised P) {r : Rule} (hr : Rule.ofNode? n = some r) :
    Mark.origins r.marks ≤ n.origins := by
  obtain ⟨⟨header, line⟩, hintro, rfl⟩ := Option.map_eq_some_iff.1 hr
  obtain ⟨hle, hline, hheader⟩ := h.introduced_origins hintro
  have hchildren : Mark.origins ((n.background?.toList.map RuleChild.background
      ++ n.scenarios.map RuleChild.scenario).flatMap RuleChild.marks)
        ≤ n.under .background + n.under .scenarioDefinition := by
    rw [List.flatMap_append, List.flatMap_map, List.flatMap_map, Mark.origins_append]
    exact add_le_add n.background?_origins n.scenarios_origins
  unfold Rule.marks
  rw [Mark.origins_cons, Mark.origins_append, Mark.origins_describe, zero_add]
  have hintroduced := ((hheader.line_origins (by decide) hline).trans (header.under_le _)).trans hle
  exact (add_le_add hintroduced hchildren).trans (n.under_add_add_le (by decide))

/-- A feature takes its tags and its line from its header, and its children from its node. -/
theorem Promised.feature_origins (h : n.Promised P) {o : Option Feature}
    (ho : Feature.ofNode n = .ok o) : ∀ f ∈ o, Mark.origins f.marks ≤ n.origins := by
  unfold Feature.ofNode at ho
  split at ho
  · cases ho
    nofun
  next header line hintro =>
    obtain ⟨hle, hline, hheader⟩ := h.introduced_origins hintro
    obtain ⟨tags, htags, rfl⟩ := Except.exists_of_map_eq_ok ho
    rintro f ⟨⟩
    have hchildren : Mark.origins ((n.background?.toList.map FeatureChild.background
        ++ n.scenarios.map FeatureChild.scenario
        ++ n.rules.map FeatureChild.rule).flatMap FeatureChild.marks)
          ≤ n.under .background + (n.under .scenarioDefinition + n.under .rule) := by
      rw [List.append_assoc, List.flatMap_append, List.flatMap_append, List.flatMap_map,
        List.flatMap_map, List.flatMap_map, Mark.origins_append, Mark.origins_append]
      exact add_le_add n.background?_origins (add_le_add n.scenarios_origins n.rules_origins)
    have hintroduced := ((add_le_add (hheader.tags_origins htags)
      (hheader.line_origins (by decide) hline)).trans (header.under_add_le nofun)).trans hle
    have hlanguage : Mark.origins [.language (line.dialect.getD "")] = 0 := rfl
    unfold Feature.marks
    rw [Mark.origins_append, Mark.origins_cons, Mark.origins_cons (.language _), hlanguage,
      Mark.origins_append, Mark.origins_describe, zero_add, zero_add, ← add_assoc]
    refine (add_le_add hintroduced hchildren).trans ?_
    have hnodup : [RuleType.featureHeader, .background, .scenarioDefinition, .rule].Nodup := by
      decide
    have hsum := n.sum_under_le hnodup
    simpa only [List.map_cons, List.map_nil, List.sum_cons, List.sum_nil, add_zero] using hsum

/-- A document takes its feature. -/
theorem document_origins {source : Source} {d : Document} (hd : Document.ofNode source n = .ok d) :
    Mark.origins d.marks ≤ n.origins := by
  obtain ⟨comments, -, rfl⟩ := Except.exists_of_map_eq_ok hd
  exact (bind_first?_origins Value.reads_feature? (fun _ => rfl) n .feature).trans (n.under_le _)

/-- The value of a table takes its rows. -/
theorem origins_tableValue {type : RuleType} {wrap : List TableRow → Value}
    (h : type.tableValue? = some wrap) (rows : List TableRow) :
    (wrap rows).origins = Mark.origins (rows.map .row) := by
  unfold RuleType.tableValue? at h
  split at h
  · cases h
    cases rows <;> rfl
  · cases h
    exact Value.origins_ofRows rows
  · cases h

/-- The value for an element that may be missing takes what the element takes. -/
theorem origins_ofElement?_le {α : Type} {wrap : α → Element} {marks : α → List Mark}
    (hmarks : ∀ a, Mark.origins (marks a) = (wrap a).origins) {o : Option α}
    {bound : Multiset Origin} (h : ∀ a ∈ o, Mark.origins (marks a) ≤ bound) :
    (Value.ofElement? wrap o).origins ≤ bound := by
  cases o with
  | none => exact Multiset.zero_le _
  | some a => exact (hmarks a).ge.trans (h a rfl)

/-- **What is filed for a closed rule** takes nothing twice, and nothing that its node does not
hold. -/
theorem Promised.origins_filed (h : n.Promised P) {source : Source} {v : Value}
    (hfiled : n.filed? source = some v) : v.origins ≤ n.origins := by
  cases htable : n.type.tableValue? with
  | some wrap =>
      obtain ⟨rows, hrows, rfl⟩ := filed?_table htable hfiled
      rw [origins_tableValue htable]
      exact (h.rows_origins hrows).trans (n.under_le _)
  | none =>
      unfold filed? assemble at hfiled
      split at hfiled
      case h_3 htype | h_7 htype =>
        rw [htype] at htable
        cases htable
      case h_1 =>
        cases hfiled
        exact origins_ofElement?_le (fun _ => rfl) fun _ => h.step_origins
      case h_2 =>
        cases hfiled
        exact origins_ofElement?_le (fun _ => rfl) fun _ => h.docString_origins
      case h_4 =>
        cases hfiled
        exact origins_ofElement?_le (fun _ => rfl) fun _ => h.background_origins
      case h_5 =>
        obtain ⟨o, ho, rfl⟩ := left?_lift hfiled
        exact origins_ofElement?_le (fun _ => rfl) (h.scenario_origins ho)
      case h_6 =>
        obtain ⟨o, ho, rfl⟩ := left?_lift hfiled
        exact origins_ofElement?_le (fun _ => rfl) (h.examples_origins ho)
      case h_8 =>
        cases hfiled
        exact Multiset.zero_le _
      case h_9 =>
        obtain ⟨o, ho, rfl⟩ := left?_lift hfiled
        exact origins_ofElement?_le (fun _ => rfl) (h.feature_origins ho)
      case h_10 =>
        cases hfiled
        exact origins_ofElement?_le (fun _ => rfl) fun _ => h.rule_origins
      case h_11 =>
        obtain ⟨d, hd, rfl⟩ := left?_lift hfiled
        exact document_origins hd
      case h_12 =>
        cases hfiled
        exact le_refl n.origins

/-- What a closed rule leaves behind takes no more than its node holds. -/
theorem Promised.origins_arrival (h : n.Promised P) (source : Source) :
    Value.originsAll ((n.arrival source).map Prod.snd) ≤ n.origins := by
  unfold Node.arrival
  cases hfiled : n.filed? source with
  | none => exact Multiset.zero_le _
  | some v =>
      show v.origins + 0 ≤ n.origins
      rw [add_zero]
      exact h.origins_filed hfiled

end Node

end Gherkin
