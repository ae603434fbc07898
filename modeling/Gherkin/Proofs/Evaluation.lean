/-
  Gherkin.Proofs.Evaluation
  ─────────────────────────
  **THE DOCUMENT OF A FOREST, FROM THE LEAVES UP.**

  Here a forest is turned into a document without a stack, without a stream
  and without anything that could go wrong in between: the value of a tree is
  made of the values of its children, grouped by category.

    • `Tree.filed?`       — the value of a tree; comments have none,
    • `Forest.arrivals`   — the values of a forest with their categories,
    • `Forest.document?`  — the value of the first document of a forest,
    • `Forest.faults`     — its ragged tables, inner tables first,
    • `Forest.build`      — document and ragged tables together.

  Only the comments know what came before: a document takes all those that
  stand before its end.
-/
import Gherkin.Proofs.Promise
import Gherkin.Proofs.Tree
import Gherkin.Stream

namespace Gherkin

/-! ## §1. Values. -/

mutual

/-- The value of a tree that the comments `before` precede. -/
def Tree.filed? (uri : String) (before : List Comment) : Tree → Option Value
  | .leaf t => if t.type = .comment then none else some (.token t)
  | .rule type children =>
    (Node.ofArrivals type (Forest.arrivals uri before children)).filed?
      (.of uri (before ++ Forest.comments children))

/-- The values of trees side by side, with the categories they are filed under. -/
def Forest.arrivals (uri : String) (before : List Comment) : Forest → List (RuleType × Value)
  | [] => []
  | t :: rest =>
    ((t.filed? uri before).map fun v => (t.category, v)).toList
      ++ Forest.arrivals uri (before ++ Forest.comments [t]) rest

end

/-! ## §2. Ragged tables. -/

/-- The report on a table with the given row tokens, if not all have the same number of items. -/
def RuleType.fault? (type : RuleType) (rows : List Token) : Option RaggedTable :=
  match type.tableValue?, raggedToken? rows with
  | some wrap, some t => some ⟨t.location, wrap (rows.map Token.row)⟩
  | _, _ => none

mutual

/-- The ragged tables of a tree: those below it, then the tree itself. -/
def Tree.faults : Tree → List (RuleType × RaggedTable)
  | .leaf _ => []
  | .rule type children =>
    Forest.faults children
      ++ ((type.fault? (Forest.direct .tableRow children)).map fun r => (type, r)).toList

/-- The ragged tables of trees side by side. -/
def Forest.faults : Forest → List (RuleType × RaggedTable)
  | [] => []
  | t :: rest => t.faults ++ Forest.faults rest

end

/-! ## §3. Documents. -/

namespace Forest

/-- The document of a forest: the value of its first tree that is one. -/
def document? (uri : String) (before : List Comment) : Forest → Option Document
  | [] => none
  | t :: rest =>
    if t.category = .gherkinDocument then (t.filed? uri before).bind Value.document?
    else document? uri (before ++ comments [t]) rest

/-- What building from a forest has to give. -/
def build (uri : String) (f : Forest) : Build :=
  ⟨f.document? uri [], f.faults.map Prod.snd⟩

theorem comments_singleton_leaf (t : Token) : comments [.leaf t] = t.comment?.toList := by
  rw [comments_leaf, comments_nil, List.append_nil]

theorem comments_singleton_rule (type : RuleType) (children : Forest) :
    comments [.rule type children] = children.comments := by
  rw [comments_rule, comments_nil, List.append_nil]

theorem arrivals_leaf (uri : String) (before : List Comment) (t : Token) (rest : Forest) :
    arrivals uri before (.leaf t :: rest) =
      t.arrival ++ arrivals uri (before ++ t.comment?.toList) rest := by
  rw [← comments_singleton_leaf]
  unfold Token.arrival
  show (Option.map _ (if t.type = .comment then none else some (Value.token t))).toList ++ _ = _
  by_cases h : t.type = .comment
  · rw [if_pos h, if_pos h]
    rfl
  · rw [if_neg h, if_neg h]
    rfl

theorem arrivals_rule (uri : String) (before : List Comment) (type : RuleType)
    (children rest : Forest) :
    arrivals uri before (.rule type children :: rest) =
      (Node.ofArrivals type (arrivals uri before children)).arrival
          (.of uri (before ++ children.comments))
        ++ arrivals uri (before ++ children.comments) rest := by
  show (Node.ofArrivals type (arrivals uri before children)).arrival _
    ++ arrivals uri (before ++ comments [.rule type children]) rest = _
  rw [comments_singleton_rule]

theorem document?_leaf (uri : String) (before : List Comment) (t : Token) (rest : Forest) :
    document? uri before (.leaf t :: rest)
      = document? uri (before ++ t.comment?.toList) rest := by
  have hne : t.category ≠ .gherkinDocument := by intro h; cases h
  rw [← comments_singleton_leaf]
  exact if_neg hne

theorem document?_rule (uri : String) (before : List Comment) (type : RuleType)
    (children rest : Forest) :
    document? uri before (.rule type children :: rest) =
      if type = .gherkinDocument
      then ((Tree.rule type children).filed? uri before).bind Value.document?
      else document? uri (before ++ children.comments) rest := by
  rw [← comments_singleton_rule type]
  rfl

@[simp] theorem faults_leaf (t : Token) (rest : Forest) :
    faults (.leaf t :: rest) = faults rest := rfl

theorem faults_rule (type : RuleType) (children rest : Forest) :
    faults (.rule type children :: rest) =
      faults children
        ++ ((type.fault? (direct .tableRow children)).map fun r => (type, r)).toList
        ++ faults rest := rfl

theorem arrivals_append (uri : String) (before : List Comment) (f g : Forest) :
    arrivals uri before (f ++ g) =
      arrivals uri before f ++ arrivals uri (before ++ f.comments) g := by
  induction f generalizing before with
  | nil => rw [List.nil_append, comments_nil, List.append_nil]; rfl
  | cons t rest ih =>
      show ((t.filed? uri before).map fun v => (t.category, v)).toList
          ++ arrivals uri (before ++ comments [t]) (rest ++ g) = _
      rw [ih, List.append_assoc before, ← comments_append, ← List.append_assoc]
      rfl

theorem faults_append (f g : Forest) : faults (f ++ g) = faults f ++ faults g := by
  induction f with
  | nil => rfl
  | cons t rest ih =>
      show t.faults ++ faults (rest ++ g) = t.faults ++ faults rest ++ faults g
      rw [ih, List.append_assoc]

/-! ## §4. Every value is of the kind that its category promises. -/

/-- **The values of a forest keep the promise** that its tokens keep. -/
theorem arrivals_promised {P : Token → Prop} (uri : String) (f : Forest)
    (hf : ∀ t ∈ f.tokens, P t) :
    ∀ before, ∀ a ∈ f.arrivals uri before, a.2.Promised P a.1 := by
  induction f using Forest.induction with
  | nil => intro before a ha; cases ha
  | leaf t rest ih =>
      intro before a ha
      rw [arrivals_leaf] at ha
      rw [tokens_leaf] at hf
      rcases List.mem_append.1 ha with ha | ha
      · exact Token.arrival_promised (hf t List.mem_cons_self) a ha
      · exact ih (fun u hu => hf u (List.mem_cons_of_mem _ hu)) _ a ha
  | rule type children rest ihc ihr =>
      intro before a ha
      rw [arrivals_rule] at ha
      rw [tokens_rule] at hf
      rcases List.mem_append.1 ha with ha | ha
      · have hnode : (Node.ofArrivals type (arrivals uri before children)).Promised P :=
          Node.promised_ofArrivals
            (ihc (fun u hu => hf u (List.mem_append_left _ hu)) before)
        exact hnode.arrival _ a ha
      · exact ihr (fun u hu => hf u (List.mem_append_right _ hu)) _ a ha

/-- The node of a rule, made of the values of its children. -/
theorem node_promised {P : Token → Prop} (uri : String) (before : List Comment) (type : RuleType)
    {children : Forest} (h : ∀ t ∈ children.tokens, P t) :
    (Node.ofArrivals type (arrivals uri before children)).Promised P :=
  Node.promised_ofArrivals (arrivals_promised uri children h before)

/-! ## §5. Reading the node of a rule. -/

/-- **The tokens of a node** are the tokens that stand directly below its rule. -/
theorem broughtTokens_arrivals (uri : String) {k : TokenType} (hk : k ≠ .comment) (f : Forest) :
    ∀ before, Node.broughtTokens k (f.arrivals uri before) = f.direct k := by
  induction f using Forest.induction with
  | nil => intro before; rfl
  | leaf t rest ih =>
      intro before
      rw [arrivals_leaf, Node.broughtTokens_append, ih, direct_leaf,
        Token.broughtTokens_arrival hk]
  | rule type children rest _ ihr =>
      intro before
      rw [arrivals_rule, Node.broughtTokens_append, ihr, direct_rule, Node.broughtTokens_arrival,
        List.nil_append]

theorem tokens_node (uri : String) (before : List Comment) (type : RuleType) {k : TokenType}
    (hk : k ≠ .comment) (children : Forest) :
    (Node.ofArrivals type (arrivals uri before children)).tokens k = children.direct k := by
  unfold Node.tokens
  rw [Node.items_ofArrivals]
  exact broughtTokens_arrivals uri hk children before

/-- A table is reported exactly when the rows directly below it differ in their number of items. -/
theorem report?_node (uri : String) (before : List Comment) (type : RuleType) {children : Forest}
    (h : ∀ t ∈ children.tokens, t.Fits) (source : Source) :
    (Node.ofArrivals type (arrivals uri before children)).report? source
      = type.fault? (children.direct .tableRow) := by
  have hnode := node_promised uri before type h
  unfold Node.report? RuleType.fault?
  cases htable : type.tableValue? with
  | none =>
      -- only a table could be reported
      cases hout : (Node.ofArrivals type (arrivals uri before children)).assemble source with
      | ok v => rfl
      | error fault =>
          cases fault with
          | ragged l kept => exact absurd hout (Node.assemble_ne_ragged htable source l kept)
          | rejected r => rfl
  | some wrap =>
      rw [Node.assemble_table htable, tableRows_eq hnode.rowTokens,
        tokens_node uri before type (by decide)]
      cases raggedToken? (children.direct .tableRow) <;> rfl

/-- With columns that fit, every rule has a value. -/
theorem filed?_isSome (uri : String) (before : List Comment) (type : RuleType) {children : Forest}
    (h : ∀ t ∈ children.tokens, t.Fits) :
    ∃ v, (Tree.rule type children).filed? uri before = some v := by
  have hnode := node_promised uri before type h
  cases hout : (Node.ofArrivals type (arrivals uri before children)).assemble
      (.of uri (before ++ children.comments)) with
  | ok v => exact ⟨v, Node.filed?_of_ok hout⟩
  | error fault =>
      cases fault with
      | ragged l kept => exact ⟨kept, Node.filed?_of_ragged hout⟩
      | rejected r => exact absurd hout (hnode.not_rejected uri _ r)

/-- The value of a table is made of all its rows, ragged or not. -/
theorem filed?_table (uri : String) (before : List Comment) {type : RuleType}
    {wrap : List TableRow → Value} (htable : type.tableValue? = some wrap) {children : Forest}
    (h : ∀ t ∈ children.tokens, t.Fits) :
    (Tree.rule type children).filed? uri before
      = some (wrap ((children.direct .tableRow).map Token.row)) := by
  rw [← tokens_node uri before type (by decide)]
  exact (node_promised uri before type h).filed_table htable _

/-! ## §6. Documents. -/

/-- The value of a document: its feature, and the comments before its end. -/
theorem filed?_gherkinDocument (uri : String) (before : List Comment) (children : Forest) :
    (Tree.rule .gherkinDocument children).filed? uri before =
      some (.element (.document
        { uri
          feature := ((Node.ofArrivals .gherkinDocument
            (arrivals uri before children)).first? .feature).bind Value.feature?
          comments := before ++ children.comments })) :=
  Node.filed?_of_ok (Node.assemble_gherkinDocument rfl uri (before ++ children.comments))

/-- **The document of a forest** is the first document that is filed. -/
theorem head?_arrived_gherkinDocument (uri : String) (f : Forest) :
    ∀ before, ((Grouped.arrived .gherkinDocument (f.arrivals uri before)).head?).bind
      Value.document? = f.document? uri before := by
  induction f using Forest.induction with
  | nil => intro before; rfl
  | leaf t rest ih =>
      intro before
      rw [arrivals_leaf, Grouped.arrived_append, document?_leaf]
      have hne : t.category ≠ .gherkinDocument := by intro h; cases h
      rw [Token.arrived_arrival_of_ne hne, List.nil_append, ih]
  | rule type children rest _ ihr =>
      intro before
      rw [arrivals_rule, Grouped.arrived_append, document?_rule]
      by_cases h : type = .gherkinDocument
      · subst h
        rw [if_pos rfl, Node.arrival_of_filed (filed?_gherkinDocument uri before children),
          filed?_gherkinDocument]
        rfl
      · rw [Node.arrived_arrival_of_ne h, List.nil_append, ihr, if_neg h]

/-- Without a tree that is a document there is none. -/
theorem document?_eq_none (uri : String) (before : List Comment) {f : Forest}
    (hf : ∀ t ∈ f, t.category ≠ .gherkinDocument) : document? uri before f = none := by
  induction f generalizing before with
  | nil => rfl
  | cons t rest ih =>
      have hskip : document? uri before (t :: rest) = document? uri (before ++ comments [t]) rest :=
        if_neg (hf t List.mem_cons_self)
      rw [hskip, ih _ fun u hu => hf u (List.mem_cons_of_mem _ hu)]

/-- The document takes the comments before its end, and nothing that comes later. -/
theorem document?_split (uri : String) (before : List Comment) {f children later : Forest}
    (hf : ∀ t ∈ f, t.category ≠ .gherkinDocument) :
    document? uri before (f ++ .rule .gherkinDocument children :: later) =
      some { uri
             feature := ((Node.ofArrivals .gherkinDocument (arrivals uri
               (before ++ f.comments) children)).first? .feature).bind Value.feature?
             comments := before ++ comments (f ++ children) } := by
  induction f generalizing before with
  | nil =>
      rw [List.nil_append, document?_rule, if_pos rfl, filed?_gherkinDocument, comments_nil,
        List.append_nil]
      rfl
  | cons t rest ih =>
      have hskip : document? uri before (t :: rest ++ .rule .gherkinDocument children :: later)
          = document? uri (before ++ comments [t])
              (rest ++ .rule .gherkinDocument children :: later) :=
        if_neg (hf t List.mem_cons_self)
      rw [hskip, ih _ fun u hu => hf u (List.mem_cons_of_mem _ hu)]
      -- the comments of the tree that is skipped join those before
      have hcomments : ∀ g : Forest,
          before ++ comments [t] ++ comments g = before ++ comments (t :: g) := by
        intro g
        rw [List.append_assoc, ← comments_append]
        rfl
      rw [hcomments, hcomments]
      rfl

end Forest

end Gherkin
