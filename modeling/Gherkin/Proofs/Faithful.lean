/-
  Gherkin.Proofs.Faithful
  ───────────────────────
  **THE DOCUMENT SAYS WHAT THE STREAM SAYS.**

  For a stream that follows the grammar, nothing is lost, doubled or moved:

    • `Forest.exists_entries`       — the values of a grammatical forest say
      the marks of the forest, child by child,
    • `Forest.filterMap_marks`      — the marks of one kind are those of the
      tokens of that kind, at whatever depth,
    • `document_says_what_was_read` — the document of a grammatical stream.

  The induction is on the forest; at a rule, the values of its children are
  split by the parts of its production and the node is read part by part.
-/
import Gherkin.Proofs.Reading
import Gherkin.Proofs.Replay

namespace Gherkin

/-! ## §1. From the children of a rule to its value. -/

/-- Whether a category holds only tokens that may stand anywhere. -/
def RuleType.isNoise : RuleType → Bool
  | .leaf k => k.isNoise
  | _ => false

/-- Apart from doc strings, the parts of a production are in different categories. -/
theorem RuleType.nodup_alternatives {type : RuleType} {parts : List Part}
    (h : parts ∈ type.alternatives) (htype : type ≠ .docString) :
    (parts.map Prod.fst).Nodup ∧ ∀ c ∈ parts.map Prod.fst, c.isNoise = false := by
  cases type with
  | root | leaf | stepArg | descriptionHelper => cases h
  | docString => exact absurd rfl htype
  | step =>
      rcases List.mem_pair.1 h with rfl | rfl
      · decide
      · decide
  | _ =>
      obtain rfl := List.mem_singleton.1 h
      decide

namespace Forest

/-- What the entries of a forest have to do with it: they are those of its essential trees, say
what the forest says, and are filed where the values of the forest are filed. -/
structure EntriesOf (uri : String) (before : List Comment) (f : Forest) (es : List Entry) :
    Prop where
  categories : es.map Entry.category = f.essential.map Tree.category
  marks : ∀ above, Entry.allMarks above es = f.marks above
  items : ∀ c, c.isNoise = false → Grouped.arrived c (f.arrivals uri before) = Entry.items es c

variable {uri : String} {before : List Comment} {children : Forest} {es : List Entry}

/-- The value of a description or a doc string is made of its lines. -/
theorem shows_text {type : RuleType} (hg : Grammatical (.rule type children))
    (htype : type = .description ∨ type = .docString) (uri : String) (before : List Comment) :
    ∃ v, (Tree.rule type children).filed? uri before = some v
      ∧ v.Shows type (Tree.rule type children).marks := by
  cases hg with
  | @rule _ _ parts hparts hmatches hchildren =>
      have hother := tokens_node uri before type (k := .other) (by decide) children
      rcases htype with rfl | rfl
      · refine ⟨.text (descriptionText (children.direct .other)), ?_, _, rfl, rfl⟩
        rw [← hother]
        rfl
      · obtain rfl := List.mem_singleton.1 hparts
        have hseparator : .leaf .docStringSeparator ∈ children.essential.map Tree.category := by
          obtain ⟨n, rest, hn, hsplit, -⟩ := hmatches
          rw [hsplit, show n = 1 from hn]
          exact List.mem_cons_self
        have hfirst := token?_node uri before .docString (k := .docStringSeparator) (by decide)
          hchildren
        cases hdirect : children.direct .docStringSeparator with
        | nil => exact absurd hdirect (direct_ne_nil hchildren hseparator)
        | cons separator rest =>
            rw [hdirect] at hfirst
            refine ⟨.element (.docString
              { location := separator.location
                contentType := separator.text
                content := Text.joinLines ((children.direct .other).map Token.text)
                delimiter := separator.keyword }), ?_, _, rfl, ?_⟩
            · show Node.left? (.ok (.ofElement? .docString (DocString.ofNode? _))) = _
              unfold DocString.ofNode?
              rw [hfirst, hother]
              rfl
            · show docStringMarks children = _
              unfold docStringMarks
              rw [hdirect]
              rfl

/-- The value of a rule says the marks of the rule. -/
theorem shows_rule {type : RuleType} (hg : Grammatical (.rule type children))
    (hfits : ∀ t ∈ children.tokens, t.Fits) (hes : EntriesOf uri before children es) :
    ∃ v, (Tree.rule type children).filed? uri before = some v
      ∧ v.Shows type (Tree.rule type children).marks := by
  by_cases htext : type = .description ∨ type = .docString
  · exact shows_text hg htext uri before
  · cases hg with
    | @rule _ _ parts hparts hmatches hchildren =>
        obtain ⟨hdescription, hdocString⟩ := not_or.1 htext
        obtain ⟨hnodup, hnoise⟩ := RuleType.nodup_alternatives hparts hdocString
        rw [← hes.categories] at hmatches
        have hitems : ∀ c, c.isNoise = false →
            Entry.items es c = (Node.ofArrivals type (arrivals uri before children)).items c := by
          intro c hc
          rw [Node.items_ofArrivals, hes.items c hc]
        have hspread := (spread_of_matches type hnodup hmatches).congr
          fun c hc => hitems c (hnoise c hc)
        have hmarks : (Tree.rule type children).marks = Entry.allMarks type es := by
          rw [hes.marks type]
          unfold Tree.marks
          rw [if_neg hdescription, if_neg hdocString]
        rw [hmarks]
        refine Node.shows_of_spread rfl (node_promised uri before type hfits) hparts htext ?_
          hspread uri _
        intro c hc hkind
        have hplain : c.isNoise = false := by
          rcases List.mem_pair.1 hkind with rfl | rfl <;> rfl
        rw [← hitems c hplain]
        exact Entry.items_eq_nil fun hmem => hc (hmatches.mem c hmem)

/-! ## §2. Over the whole forest. -/

/-- **The values of a grammatical forest** say the marks of the forest. -/
theorem exists_entries (uri : String) {f : Forest} (hg : ∀ t ∈ f, Grammatical t)
    (hfits : ∀ t ∈ f.tokens, t.Fits) : ∀ before, ∃ es, EntriesOf uri before f es := by
  induction f using Forest.induction with
  | nil => exact fun before => ⟨[], rfl, fun _ => rfl, fun _ _ => rfl⟩
  | leaf t rest ih =>
      intro before
      rw [tokens_leaf] at hfits
      obtain ⟨es, hes⟩ := ih (fun u hu => hg u (List.mem_cons_of_mem _ hu))
        (fun u hu => hfits u (List.mem_cons_of_mem _ hu)) (before ++ t.comment?.toList)
      -- a token that may stand anywhere is no entry, and says nothing
      by_cases hnoise : t.type.isNoise
      · refine ⟨es, ?_, ?_, ?_⟩
        · rw [hes.categories]
          unfold essential
          rw [List.filter_cons_of_neg (by simpa [Tree.isNoise] using hnoise)]
        · intro above
          rw [hes.marks]
          show _ = above.kept t.category t.marks ++ _
          rw [Token.marks_of_isNoise hnoise, RuleType.kept_nil, List.nil_append]
        · intro c hc
          have hne : t.category ≠ c := by
            rintro rfl
            exact absurd (hc.symm.trans hnoise) (by decide)
          rw [arrivals_leaf, Grouped.arrived_append, Token.arrived_arrival_of_ne hne,
            List.nil_append, hes.items c hc]
      · refine ⟨⟨t.category, .token t, t.marks, t, rfl, rfl, rfl⟩ :: es, ?_, ?_, ?_⟩
        · rw [List.map_cons, hes.categories]
          unfold essential
          rw [List.filter_cons_of_pos (by simpa [Tree.isNoise] using hnoise)]
          rfl
        · intro above
          show above.kept t.category t.marks ++ Entry.allMarks above es = _
          rw [hes.marks]
          rfl
        · intro c hc
          have hcomment : t.type ≠ .comment := by
            intro h
            rw [h] at hnoise
            exact hnoise rfl
          rw [arrivals_leaf, Grouped.arrived_append, hes.items c hc]
          unfold Token.arrival
          rw [if_neg hcomment, Grouped.arrived_singleton]
          by_cases h : t.category = c <;> simp [Entry.items, h]
  | rule type children rest ihc ihr =>
      intro before
      rw [tokens_rule] at hfits
      have hrule : Grammatical (.rule type children) := hg _ List.mem_cons_self
      have hbelow : ∀ t ∈ children.tokens, t.Fits := fun t ht => hfits t (List.mem_append_left _ ht)
      obtain ⟨inside, hinside⟩ := ihc hrule.children hbelow before
      obtain ⟨es, hes⟩ := ihr (fun u hu => hg u (List.mem_cons_of_mem _ hu))
        (fun u hu => hfits u (List.mem_append_right _ hu)) (before ++ children.comments)
      -- the rule is one entry, with the value that its children give
      obtain ⟨v, hv, hshows⟩ := shows_rule hrule hbelow hinside
      refine ⟨⟨type, v, (Tree.rule type children).marks, hshows⟩ :: es, ?_, ?_, ?_⟩
      · rw [List.map_cons, hes.categories]
        rfl
      · intro above
        show above.kept type _ ++ Entry.allMarks above es = _
        rw [hes.marks]
        rfl
      · intro c hc
        have harrival := Node.arrival_of_filed (show Node.filed? _ _ = some v from hv)
        rw [arrivals_rule, Grouped.arrived_append, harrival, hes.items c hc,
          Grouped.arrived_singleton]
        by_cases h : type = c <;> simp [Entry.items, h]

/-! ## §3. The marks of one kind. -/

theorem mem_tokens {u : Token} {f : Forest} : u ∈ f.tokens ↔ ∃ t ∈ f, u ∈ t.tokens := by
  induction f with
  | nil => simp
  | cons t rest ih =>
      show u ∈ t.tokens ++ tokens rest ↔ _
      rw [List.mem_append, ih]
      simp

/-- Tags, descriptions and doc strings hold nothing but their own lines. -/
theorem type_of_mem_text {type : RuleType} (hg : Grammatical (.rule type children))
    (htype : type ∈ [RuleType.tags, .description, .docString]) :
    ∀ u ∈ children.tokens,
      u.type.isNoise ∨ u.type ∈ [TokenType.tagLine, .other, .docStringSeparator] := by
  cases hg with
  | @rule _ _ parts hparts hmatches hchildren =>
      have hleaf : ∀ c ∈ parts.map Prod.fst,
          ∃ k ∈ [TokenType.tagLine, .other, .docStringSeparator], c = .leaf k := by
        simp only [List.mem_cons, List.not_mem_nil, or_false] at htype
        rcases htype with rfl | rfl | rfl <;> obtain rfl := List.mem_singleton.1 hparts <;>
          simp
      intro u hu
      obtain ⟨t, ht, hut⟩ := mem_tokens.1 hu
      by_cases hnoise : t.isNoise
      · cases t with
        | leaf u' =>
            obtain rfl := List.mem_singleton.1 hut
            exact .inl hnoise
        | rule _ _ => cases hnoise
      · have hessential : t ∈ children.essential :=
          List.mem_filter.2 ⟨ht, by simpa using hnoise⟩
        obtain ⟨k, hk, hcategory⟩ := hleaf _ (hmatches.mem _ (List.mem_map_of_mem hessential))
        obtain ⟨u', rfl, rfl⟩ := (hchildren t ht).eq_leaf hcategory
        obtain rfl := List.mem_singleton.1 hut
        exact .inr hk

variable {α : Type} {read : Mark → Option α}

theorem filterMap_marks_text (htag : ∀ tag, read (.tag tag) = none) {type : RuleType}
    (hg : Grammatical (.rule type children))
    (htype : type ∈ [RuleType.tags, .description, .docString]) :
    children.tokens.flatMap (fun t => t.marks.filterMap read) = [] := by
  rw [List.flatMap_eq_nil_iff]
  intro u hu
  rcases type_of_mem_text hg htype u hu with hnoise | hkind
  · rw [Token.marks_of_isNoise hnoise]
    rfl
  · unfold Token.marks
    simp only [List.mem_cons, List.not_mem_nil, or_false] at hkind
    rcases hkind with h | h | h <;> rw [h]
    · simp [List.filterMap_map, htag]
    · rfl
    · rfl

/-- **The marks of one kind are those of the tokens**, at whatever depth: a kind that is neither a
tag nor made of several lines. -/
theorem filterMap_marks (htag : ∀ tag, read (.tag tag) = none)
    (htext : ∀ text, read (.description text) = none)
    (hstring : ∀ l delimiter contentType content,
      read (.docString l delimiter contentType content) = none)
    {f : Forest} (hg : ∀ t ∈ f, Grammatical t) :
    ∀ above, (f.marks above).filterMap read = f.tokens.flatMap fun t => t.marks.filterMap read := by
  induction f using Forest.induction with
  | nil => intro above; rfl
  | leaf t rest ih =>
      intro above
      show (above.kept (.leaf t.type) t.marks ++ marks above rest).filterMap read = _
      have hne : RuleType.leaf t.type ≠ .tags := nofun
      rw [RuleType.kept_of_ne hne, List.filterMap_append,
        ih fun u hu => hg u (List.mem_cons_of_mem _ hu), tokens_leaf, List.flatMap_cons]
  | rule type children rest ihc ihr =>
      intro above
      have hrule : Grammatical (.rule type children) := hg _ List.mem_cons_self
      show (above.kept type (Tree.rule type children).marks ++ marks above rest).filterMap read = _
      rw [List.filterMap_append, ihr fun u hu => hg u (List.mem_cons_of_mem _ hu), tokens_rule,
        List.flatMap_append]
      congr 1
      by_cases hquiet : type ∈ [RuleType.tags, .description, .docString]
      · -- nothing of the kind on either side
        have hown : (Tree.rule type children).marks.filterMap read = [] := by
          simp only [List.mem_cons, List.not_mem_nil, or_false] at hquiet
          rcases hquiet with rfl | rfl | rfl
          · show (marks .tags children).filterMap read = []
            rw [ihc hrule.children, filterMap_marks_text htag hrule (by decide)]
          · show (Mark.describe _).filterMap read = []
            unfold Mark.describe
            split
            · rfl
            · simp [htext]
          · show (docStringMarks children).filterMap read = []
            unfold docStringMarks
            simp [List.filterMap_map, hstring]
        rw [filterMap_marks_text htag hrule hquiet]
        unfold RuleType.kept
        split
        · rfl
        · exact hown
      · simp only [List.mem_cons, List.not_mem_nil, or_false, not_or] at hquiet
        obtain ⟨htags, hdescription, hdocString⟩ := hquiet
        rw [RuleType.kept_of_ne htags above, ← ihc hrule.children type]
        unfold Tree.marks
        rw [if_neg hdescription, if_neg hdocString]

end Forest

/-! ## §4. Lines and rows. -/

/-- The types of the lines that start with a keyword. -/
def TokenType.keywordLines : List TokenType :=
  [.featureLine, .ruleLine, .backgroundLine, .scenarioLine, .examplesLine, .stepLine]

/-- Place, keyword and text of a mark that is a line of a type. -/
def Mark.line? (k : TokenType) : Mark → Option (Location × String × String)
  | .line type location keyword text => if type = k then some (location, keyword, text) else none
  | _ => none

/-- The row that a mark is. -/
def Mark.row? : Mark → Option TableRow
  | .row r => some r
  | _ => none

theorem Token.filterMap_line? {k : TokenType} (hk : k ∈ TokenType.keywordLines) (t : Token) :
    t.marks.filterMap (Mark.line? k)
      = if t.type = k then [(t.location, t.keyword, t.text)] else [] := by
  by_cases h : t.type = k
  · rw [if_pos h]
    rcases List.mem_cons.1 hk with rfl | hk
    · rw [Token.marks_featureLine h]
      rfl
    · rw [Token.marks_line h hk]
      simp [Mark.line?]
  · rw [if_neg h, List.filterMap_eq_nil_iff]
    intro m hm
    unfold marks at hm
    split at hm
    case h_1 htype =>
      rcases List.mem_pair.1 hm with rfl | rfl
      · exact if_neg (htype ▸ h)
      · rfl
    case h_2 | h_3 | h_4 | h_5 | h_6 =>
      rw [List.mem_singleton.1 hm]
      exact if_neg h
    case h_7 =>
      obtain ⟨tag, -, rfl⟩ := List.mem_map.1 hm
      rfl
    case h_8 =>
      rw [List.mem_singleton.1 hm]
      rfl
    case h_9 => cases hm

theorem Token.filterMap_row? (t : Token) :
    t.marks.filterMap Mark.row? = if t.type = .tableRow then [t.row] else [] := by
  unfold marks
  split
  case h_7 htype =>
    rw [if_neg (by rw [htype]; decide), List.filterMap_map]
    exact List.filterMap_eq_nil_iff.2 fun _ _ => rfl
  case h_8 htype => rw [if_pos htype]; rfl
  case h_9 hrow => exact (if_neg hrow).symm
  all_goals
    rename_i htype
    rw [if_neg (by rw [htype]; decide)]
    rfl

theorem flatMap_ite_nil {α β : Type} (p : α → Prop) [DecidablePred p] (f : α → List β)
    (l : List α) : (l.flatMap fun a => if p a then f a else []) = (l.filter p).flatMap f := by
  induction l with
  | nil => rfl
  | cons a rest ih => by_cases h : p a <;> simp [h, ih]

theorem flatMap_ite {α β : Type} (p : α → Prop) [DecidablePred p] (f : α → β) (l : List α) :
    (l.flatMap fun a => if p a then [f a] else []) = (l.filter p).map f :=
  (flatMap_ite_nil p (fun a => [f a]) l).trans List.map_eq_flatMap.symm

namespace Forest

theorem lines_marks {k : TokenType} (hk : k ∈ TokenType.keywordLines) {f : Forest}
    (hg : ∀ t ∈ f, Grammatical t) (above : RuleType) :
    (f.marks above).filterMap (Mark.line? k)
      = (f.tokens.filter (·.type = k)).map fun t => (t.location, t.keyword, t.text) := by
  rw [filterMap_marks (fun _ => rfl) (fun _ => rfl) (fun _ _ _ _ => rfl) hg, ← flatMap_ite]
  congr 1
  funext t
  exact Token.filterMap_line? hk t

theorem rows_marks {f : Forest} (hg : ∀ t ∈ f, Grammatical t) (above : RuleType) :
    (f.marks above).filterMap Mark.row?
      = (f.tokens.filter (·.type = .tableRow)).map Token.row := by
  rw [filterMap_marks (fun _ => rfl) (fun _ => rfl) (fun _ _ _ _ => rfl) hg, ← flatMap_ite]
  congr 1
  funext t
  exact Token.filterMap_row? t

end Forest

/-! ## §5. The document of a grammatical stream. -/

/-- **The document says what was read, in the same order.**  The stream walks over a document that
follows the grammar, with tokens around it that may stand anywhere; its tables may be ragged.  Lines
and rows are those of the tokens, and so is everything else but the tags of a rule's header, for
which a document has no place. -/
theorem document_says_what_was_read (uri : String) {f front children later : Forest}
    (hf : f = front ++ .rule .gherkinDocument children :: later)
    (hfront : ∀ t ∈ front, t.isNoise) (hlater : ∀ t ∈ later, t.isNoise)
    (hg : Grammatical (.rule .gherkinDocument children)) (hfits : ∀ t ∈ f.tokens, t.Fits) :
    ∃ d, (Run.ofEvents uri false f.events).outcome = .ok ⟨some d, f.faults.map Prod.snd⟩
      ∧ d.uri = uri
      ∧ d.marks = f.marks .root
      ∧ (∀ k ∈ TokenType.keywordLines, d.marks.filterMap (Mark.line? k)
          = (f.tokens.filter (·.type = k)).map fun t => (t.location, t.keyword, t.text))
      ∧ d.marks.filterMap Mark.row? = (f.tokens.filter (·.type = .tableRow)).map Token.row
      ∧ d.comments = Forest.comments (front ++ children) := by
  subst hf
  have hgrammatical : ∀ t ∈ front ++ .rule .gherkinDocument children :: later, Grammatical t := by
    intro t ht
    rcases List.mem_append.1 ht with ht | ht
    · exact .of_isNoise (hfront t ht)
    · rcases List.mem_cons.1 ht with rfl | ht
      · exact hg
      · exact .of_isNoise (hlater t ht)
  obtain ⟨es, hes⟩ := Forest.exists_entries uri hgrammatical hfits []
  -- only one entry is left, and it is the document
  have hone : es.map Entry.category = [.gherkinDocument] := by
    rw [hes.categories, Forest.essential_append, Forest.essential_eq_nil hfront]
    show .gherkinDocument :: (Forest.essential later).map Tree.category = _
    rw [Forest.essential_eq_nil hlater]
    rfl
  obtain ⟨⟨_, v, ms, hshows⟩, rfl, rfl⟩ := List.map_eq_singleton_iff.1 hone
  obtain ⟨d, rfl, rfl⟩ := hshows
  have hmarks : d.marks
      = Forest.marks .root (front ++ .rule .gherkinDocument children :: later) := by
    rw [← hes.marks]
    exact (List.append_nil _).symm
  have hdocument : Forest.document? uri [] (front ++ .rule .gherkinDocument children :: later)
      = some d := by
    rw [← Forest.head?_arrived_gherkinDocument, hes.items _ rfl]
    rfl
  have hrun := (Builder.new uri).run_events hfits
  -- nothing in front is a document, so it is this one that is taken
  have hnone : ∀ t ∈ front, t.category ≠ .gherkinDocument := by
    intro t ht h
    cases t with
    | leaf u => cases h
    | rule type below => cases hfront _ ht
  have hsplit := (Forest.document?_split uri [] hnone).symm.trans hdocument
  refine ⟨d, ?_, ?_, hmarks, ?_, ?_, ?_⟩
  · show ((Builder.new uri).run false _).outcome = _
    rw [hrun]
    show Except.ok (Build.mk (Forest.document? uri [] _) _) = _
    rw [hdocument]
  · rw [← Option.some.inj hsplit]
  · intro k hk
    rw [hmarks]
    exact Forest.lines_marks hk hgrammatical .root
  · rw [hmarks]
    exact Forest.rows_marks hgrammatical .root
  · rw [← Option.some.inj hsplit]
    rfl

/-- A line at the start of which a token stands. -/
def lineTree (type : TokenType) (n : UInt32) (keyword text : String)
    (items : List Item := []) : Tree :=
  .leaf { type, location := ⟨n, 1⟩, keyword, text, items }

/-- A feature with tags, a rule with a tag above it, a doc string, a ragged table, examples. -/
def sampleFeature : Forest :=
  [ .rule .featureHeader
      [ .rule .tags [lineTree .tagLine 2 "" "" [⟨1, "@a"⟩, ⟨4, "@b"⟩]],
        lineTree .featureLine 3 "Feature" "F",
        .rule .description [lineTree .other 4 "" "text", lineTree .other 5 "" " "] ],
    .rule .rule
      [ .rule .ruleHeader
          [.rule .tags [lineTree .tagLine 6 "" "" [⟨1, "@c"⟩]], lineTree .ruleLine 7 "Rule" "R"],
        .rule .background
          [ lineTree .backgroundLine 8 "Background" "",
            .rule .step
              [ lineTree .stepLine 9 "Given " "x",
                .rule .docString
                  [ lineTree .docStringSeparator 10 "```" "json", lineTree .other 11 "" "[]",
                    lineTree .docStringSeparator 12 "```" "" ] ] ],
        lineTree .comment 13 "" "# inside",
        .rule .scenarioDefinition
          [ .rule .scenario
              [ lineTree .scenarioLine 14 "Scenario Outline" "S",
                .rule .step
                  [ lineTree .stepLine 15 "When " "y",
                    .rule .dataTable
                      [ lineTree .tableRow 16 "" "" [⟨3, "1"⟩, ⟨7, "2"⟩],
                        lineTree .empty 17 "" "",
                        lineTree .tableRow 18 "" "" [⟨3, "3"⟩] ] ],
                .rule .examplesDefinition
                  [ .rule .examples
                      [ lineTree .examplesLine 19 "Examples" "E",
                        .rule .examplesTable [lineTree .tableRow 20 "" "" [⟨3, "h"⟩]] ] ] ] ] ] ]

theorem document_sampleFeature :
    let front := [lineTree .comment 1 "" "# before"]
    let children : Forest := [.rule .feature sampleFeature]
    let later := [lineTree .comment 21 "" "# after", lineTree .eof 22 "" ""]
    let f := front ++ .rule .gherkinDocument children :: later
    (∀ t ∈ front, t.isNoise) ∧ (∀ t ∈ later, t.isNoise)
      ∧ Grammatical (.rule .gherkinDocument children) ∧ (∀ t ∈ Forest.tokens f, t.Fits)
      ∧ ∃ d error, (Run.ofEvents "" false (Forest.events f)).outcome = .ok ⟨some d, [error]⟩
        ∧ d.comments = [⟨⟨1, 1⟩, "# before"⟩, ⟨⟨13, 1⟩, "# inside"⟩]
        ∧ d.marks =
          [ .tag ⟨⟨2, 1⟩, "@a"⟩, .tag ⟨⟨2, 4⟩, "@b"⟩,
            .line .featureLine ⟨3, 1⟩ "Feature" "F", .language "", .description "text",
            .line .ruleLine ⟨7, 1⟩ "Rule" "R",
            .line .backgroundLine ⟨8, 1⟩ "Background" "",
            .line .stepLine ⟨9, 1⟩ "Given " "x", .docString ⟨10, 1⟩ "```" "json" "[]",
            .line .scenarioLine ⟨14, 1⟩ "Scenario Outline" "S",
            .line .stepLine ⟨15, 1⟩ "When " "y",
            .row ⟨⟨16, 1⟩, [⟨⟨16, 3⟩, "1"⟩, ⟨⟨16, 7⟩, "2"⟩]⟩, .row ⟨⟨18, 1⟩, [⟨⟨18, 3⟩, "3"⟩]⟩,
            .line .examplesLine ⟨19, 1⟩ "Examples" "E", .row ⟨⟨20, 1⟩, [⟨⟨20, 3⟩, "h"⟩]⟩ ] := by
  intro front children later f
  have hfront : ∀ t ∈ front, t.isNoise := by decide
  have hlater : ∀ t ∈ later, t.isNoise := by decide
  have hg : Grammatical (.rule .gherkinDocument children) :=
    Forest.grammatical_of_follows (f := [.rule .gherkinDocument children]) (by decide) _
      List.mem_cons_self
  have hfits : ∀ t ∈ Forest.tokens f, t.Fits := by decide
  obtain ⟨d, hrun, -, hmarks, -, -, hcomments⟩ :=
    document_says_what_was_read "" (f := f) rfl hfront hlater hg hfits
  exact ⟨hfront, hlater, hg, hfits, d, _, hrun, hcomments, hmarks⟩

end Gherkin
