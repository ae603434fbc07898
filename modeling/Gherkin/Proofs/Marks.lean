/-
  Gherkin.Proofs.Marks
  ────────────────────
  **WHAT A FEATURE FILE SAYS, IN ORDER.**

  A mark is one thing that a feature file says: a keyword line, a tag, a row,
  a description, a doc string.  Documents and forests are both read as lists
  of marks, a document from its first tag to its last row, a forest in the
  order of its walk.

    • `Document.marks`   — the marks of a document, element by element,
    • `Forest.marks`     — the marks of a forest,
    • `Value.Shows`      — what the value of a grammatical rule says,
    • `Spread`           — the marks of a rule, part by part of its production,
    • `spread_of_matches`— which is how the marks of its children lie.

  The tags above a rule's header have no place in a document; `RuleType.kept`
  leaves them out of the marks of a forest, and nothing else.
-/
import Gherkin.Proofs.Grammar

namespace Gherkin

/-! ## §1. Marks. -/

/-- One thing that a feature file says. -/
inductive Mark where
  | line (type : TokenType) (location : Location) (keyword text : String)
  | language (name : String)
  | tag (tag : Tag)
  | row (row : TableRow)
  | description (text : String)
  | docString (location : Location) (delimiter contentType content : String)
  deriving DecidableEq

/-- The mark of a description, unless it is empty. -/
def Mark.describe (text : String) : List Mark := if text = "" then [] else [.description text]

/-! ## §2. The marks of a document. -/

def DataTable.marks (t : DataTable) : List Mark := t.rows.map .row

def DocString.marks (d : DocString) : List Mark :=
  [.docString d.location d.delimiter d.contentType d.content]

def Step.marks (s : Step) : List Mark :=
  .line .stepLine s.location s.keyword s.text ::
    (s.dataTable.toList.flatMap DataTable.marks ++ s.docString.toList.flatMap DocString.marks)

def Background.marks (b : Background) : List Mark :=
  .line .backgroundLine b.location b.keyword b.name ::
    (Mark.describe b.description ++ b.steps.flatMap Step.marks)

def Examples.marks (e : Examples) : List Mark :=
  e.tags.map .tag ++ .line .examplesLine e.location e.keyword e.name ::
    (Mark.describe e.description ++ (e.header.toList ++ e.body).map .row)

def Scenario.marks (s : Scenario) : List Mark :=
  s.tags.map .tag ++ .line .scenarioLine s.location s.keyword s.name ::
    (Mark.describe s.description ++ s.steps.flatMap Step.marks ++ s.examples.flatMap Examples.marks)

def RuleChild.marks : RuleChild → List Mark
  | .background b => b.marks
  | .scenario s => s.marks

def Rule.marks (r : Rule) : List Mark :=
  .line .ruleLine r.location r.keyword r.name ::
    (Mark.describe r.description ++ r.children.flatMap RuleChild.marks)

def FeatureChild.marks : FeatureChild → List Mark
  | .background b => b.marks
  | .scenario s => s.marks
  | .rule r => r.marks

def Feature.marks (f : Feature) : List Mark :=
  f.tags.map .tag ++
    .line .featureLine f.location f.keyword f.name :: .language f.language ::
      (Mark.describe f.description ++ f.children.flatMap FeatureChild.marks)

/-- What a document says, in order. -/
def Document.marks (d : Document) : List Mark := d.feature.toList.flatMap Feature.marks

/-! ## §3. The marks of a forest. -/

/-- What a token says by itself. -/
def Token.marks (t : Token) : List Mark :=
  match t.type with
  | .featureLine =>
    [.line .featureLine t.location t.keyword t.text, .language (t.dialect.getD "")]
  | .ruleLine | .backgroundLine | .scenarioLine | .examplesLine | .stepLine =>
    [.line t.type t.location t.keyword t.text]
  | .tagLine => t.tags.map .tag
  | .tableRow => [.row t.row]
  | _ => []

/-- What the children of a doc string say together. -/
def Forest.docStringMarks (children : Forest) : List Mark :=
  (children.direct .docStringSeparator).head?.toList.map fun separator =>
    .docString separator.location separator.keyword separator.text
      (Text.joinLines ((children.direct .other).map Token.text))

/-- What is kept of a part's marks below a rule: nothing of the tags of a rule's header. -/
def RuleType.kept (above part : RuleType) (marks : List Mark) : List Mark :=
  match above, part with
  | .ruleHeader, .tags => []
  | _, _ => marks

mutual

/-- What a tree says, in order. -/
def Tree.marks : Tree → List Mark
  | .leaf t => t.marks
  | .rule type children =>
    if type = .description then
      Mark.describe (descriptionText (Forest.direct .other children))
    else if type = .docString then Forest.docStringMarks children
    else Forest.marks type children

/-- What trees side by side say, in order, below a rule. -/
def Forest.marks (above : RuleType) : Forest → List Mark
  | [] => []
  | t :: rest => above.kept t.category t.marks ++ Forest.marks above rest

end

theorem RuleType.kept_nil (above part : RuleType) : above.kept part [] = [] := by
  unfold kept
  split <;> rfl

theorem RuleType.kept_append (above part : RuleType) (xs ys : List Mark) :
    above.kept part (xs ++ ys) = above.kept part xs ++ above.kept part ys := by
  unfold kept
  split <;> rfl

theorem RuleType.kept_of_ne {part : RuleType} (h : part ≠ .tags) (above : RuleType)
    (marks : List Mark) : above.kept part marks = marks := by
  unfold kept
  split
  next => exact absurd rfl h
  next => rfl

theorem Token.marks_of_isNoise {t : Token} (h : t.type.isNoise) : t.marks = [] := by
  unfold marks
  cases htype : t.type <;> rw [htype] at h <;> first | rfl | cases h

/-! ## §4. What the value of a rule says. -/

/-- The marks of the tags that hang off a node. -/
def Node.tagMarks (n : Node) : List Mark := (n.tagLines.flatMap Token.tags).map .tag

/-- Whether a value under a category says the given marks. -/
def Value.Shows (r : RuleType) (v : Value) (ms : List Mark) : Prop :=
  match r with
  | .leaf k => ∃ t, v = .token t ∧ t.type = k ∧ ms = t.marks
  | .step => ∃ s, v = .element (.step s) ∧ ms = s.marks
  | .docString => ∃ d, v = .element (.docString d) ∧ ms = d.marks
  | .dataTable => ∃ t, v = .element (.dataTable t) ∧ ms = t.marks
  | .examplesTable => ∃ rows : List TableRow, v = .ofRows rows ∧ ms = rows.map .row
  | .description => ∃ s, v = .text s ∧ ms = Mark.describe s
  | .background => ∃ b, v = .element (.background b) ∧ ms = b.marks
  | .scenarioDefinition => ∃ s, v = .element (.scenario s) ∧ ms = s.marks
  | .examplesDefinition => ∃ e, v = .element (.examples e) ∧ ms = e.marks
  | .rule => ∃ r, v = .element (.rule r) ∧ ms = r.marks
  | .feature => ∃ f, v = .element (.feature f) ∧ ms = f.marks
  | .gherkinDocument => ∃ d, v = .element (.document d) ∧ ms = d.marks
  | .tags => ∃ n, v = .ofNode n ∧ ms = ((n.tokens .tagLine).flatMap Token.tags).map .tag
  | .featureHeader => ∃ n line, v = .ofNode n ∧ n.token? .featureLine = some line
      ∧ line.type = .featureLine ∧ ms = n.tagMarks ++ (line.marks ++ Mark.describe n.description)
  | .ruleHeader => ∃ n line, v = .ofNode n ∧ n.token? .ruleLine = some line
      ∧ line.type = .ruleLine ∧ ms = line.marks ++ Mark.describe n.description
  | .scenario => ∃ n line, v = .ofNode n ∧ n.token? .scenarioLine = some line
      ∧ line.type = .scenarioLine ∧ ms = line.marks ++ (Mark.describe n.description
        ++ (n.steps.flatMap Step.marks ++ n.examples.flatMap Examples.marks))
  | .examples => ∃ (n : Node) (line : Token) (rows : List TableRow),
      v = .ofNode n ∧ n.token? .examplesLine = some line
      ∧ line.type = .examplesLine
      ∧ Examples.splitTable (n.first? .examplesTable) = .ok (rows.head?, rows.tail)
      ∧ ms = line.marks ++ (Mark.describe n.description ++ rows.map .row)
  | _ => False

/-- Whether values under a category say the given marks, one after the other. -/
def Value.ShowAll (r : RuleType) : List Value → List Mark → Prop
  | [], ms => ms = []
  | v :: vs, ms => ∃ own rest, v.Shows r own ∧ ms = own ++ rest ∧ Value.ShowAll r vs rest

/-! ## §5. The marks of a rule, part by part. -/

/-- Whether the values of one part are as many as the grammar allows and say the given marks. -/
def Part.Shown (items : RuleType → List Value) (part : Part) (ms : List Mark) : Prop :=
  part.2.Allows (items part.1).length ∧ Value.ShowAll part.1 (items part.1) ms

/-- Whether the values of all parts of a rule together say the given marks. -/
def Spread (above : RuleType) (items : RuleType → List Value) : List Part → List Mark → Prop
  | [], ms => ms = []
  | part :: parts, ms => ∃ own rest, part.Shown items own ∧ ms = above.kept part.1 own ++ rest
      ∧ Spread above items parts rest

/-- A value that a forest brings to a category, with what it says. -/
structure Entry where
  category : RuleType
  value : Value
  marks : List Mark
  shown : value.Shows category marks

namespace Entry

/-- The values of a category. -/
def items (es : List Entry) (c : RuleType) : List Value :=
  (es.filter (·.category = c)).map value

/-- What entries say below a rule. -/
def allMarks (above : RuleType) (es : List Entry) : List Mark :=
  es.flatMap fun e => above.kept e.category e.marks

theorem items_append (es fs : List Entry) (c : RuleType) :
    items (es ++ fs) c = items es c ++ items fs c := by
  unfold items
  rw [List.filter_append, List.map_append]

theorem items_eq_nil {es : List Entry} {c : RuleType} (h : c ∉ es.map category) :
    items es c = [] := by
  unfold items
  rw [List.map_eq_nil_iff, List.filter_eq_nil_iff]
  intro e he hc
  exact h (List.mem_map.2 ⟨e, he, of_decide_eq_true hc⟩)

/-- Entries of one category say what their values say one after the other. -/
theorem showAll_items {c : RuleType} {es : List Entry} (h : ∀ e ∈ es, e.category = c)
    (above : RuleType) :
    ∃ own, Value.ShowAll c (items es c) own ∧ (items es c).length = es.length
      ∧ allMarks above es = above.kept c own := by
  induction es with
  | nil => exact ⟨[], rfl, rfl, (above.kept_nil c).symm⟩
  | cons e rest ih =>
      obtain ⟨own, hown, hlength, hmarks⟩ := ih fun f hf => h f (List.mem_cons_of_mem _ hf)
      have he : e.category = c := h e List.mem_cons_self
      have hitems : items (e :: rest) c = e.value :: items rest c := by
        simp [items, he]
      refine ⟨e.marks ++ own, ?_, ?_, ?_⟩
      · rw [hitems]
        exact ⟨e.marks, own, he ▸ e.shown, rfl, hown⟩
      · rw [hitems, List.length_cons, hlength, List.length_cons]
      · rw [RuleType.kept_append, ← hmarks, ← he]
        rfl

end Entry

/-- Only the values of its parts matter to a rule. -/
theorem Spread.congr {above : RuleType} {items items' : RuleType → List Value} {parts : List Part}
    {ms : List Mark} (h : Spread above items parts ms)
    (heq : ∀ c ∈ parts.map Prod.fst, items c = items' c) : Spread above items' parts ms := by
  induction parts generalizing ms with
  | nil => exact h
  | cons part parts ih =>
      obtain ⟨own, rest, hown, hms, hrest⟩ := h
      refine ⟨own, rest, ?_, hms, ih hrest fun c hc => heq c (List.mem_cons_of_mem _ hc)⟩
      unfold Part.Shown at hown ⊢
      rw [← heq part.1 List.mem_cons_self]
      exact hown

/-- **Entries that match a production** say what its parts say one after the other. -/
theorem spread_of_matches (above : RuleType) {parts : List Part}
    (hparts : (parts.map Prod.fst).Nodup) {es : List Entry}
    (h : Matches parts (es.map Entry.category)) :
    Spread above (Entry.items es) parts (Entry.allMarks above es) := by
  induction parts generalizing es with
  | nil =>
      rw [List.map_eq_nil_iff.1 h]
      rfl
  | cons part parts ih =>
      obtain ⟨c, count⟩ := part
      obtain ⟨n, categories, hcount, hsplit, hrest⟩ := h
      obtain ⟨hc, hnodup⟩ := List.nodup_cons.1 hparts
      obtain ⟨block, others, rfl, hblock, rfl⟩ := List.map_eq_append_iff.1 hsplit
      have hcategory : ∀ e ∈ block, e.category = c := fun e he =>
        List.eq_of_mem_replicate (hblock ▸ List.mem_map_of_mem he)
      obtain ⟨own, hown, hlength, hmarks⟩ := Entry.showAll_items hcategory above
      -- nothing of this part comes later, and nothing of a later part comes here
      have hhere : Entry.items (block ++ others) c = Entry.items block c := by
        rw [Entry.items_append, Entry.items_eq_nil fun hmem => hc (hrest.mem c hmem),
          List.append_nil]
      have hlater : ∀ c' ∈ parts.map Prod.fst,
          Entry.items others c' = Entry.items (block ++ others) c' := by
        intro c' hc'
        have hne : c' ∉ block.map Entry.category := by
          rw [hblock]
          intro hmem
          exact hc (List.eq_of_mem_replicate hmem ▸ hc')
        rw [Entry.items_append, Entry.items_eq_nil hne, List.nil_append]
      refine ⟨own, Entry.allMarks above others, ?_, ?_, (ih hnodup hrest).congr hlater⟩
      · have hn : block.length = n := by
          rw [← List.length_map Entry.category, hblock, List.length_replicate]
        unfold Part.Shown
        rw [hhere, hlength, hn]
        exact ⟨hcount, hown⟩
      · rw [← hmarks]
        exact List.flatMap_append

end Gherkin
