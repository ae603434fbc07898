/-
  Gherkin.Proofs.Messages
  ───────────────────────
  **THE MESSAGES OF ERRORS THAT ARE PUT TOGETHER.**

  The message for a code is made of a template, which may have a slot for
  details; an error that puts others together has their messages for its
  details.  So a text may be handed up through any number of templates.  It is
  never read as one:

    • `Text.fill`              — filling a template, character by character,
      with braces as the marks of a slot; what is put into a slot is not
      looked at,
    • `ErrorCode.fill_template` — the words for a code are its template,
      filled,
    • `Diagnostic.Says`        — what the message of an error says, by the
      kind of the error, with all texts as they are,
    • `Diagnostic.leaves`      — the errors that are not put together from
      others,
    • `message_of_error_tree`  — a tree of errors has the message that it
      says, unless a leaf lacks the details for its slot.
-/
import Gherkin.Diagnostic

namespace Gherkin

/-! ## §1. Templates. -/

/-- What keeps a template from being filled. -/
inductive TemplateFault where
  /-- There is no value for a slot. -/
  | missing (detail : MissingDetail)
  /-- A brace is neither the mark of a slot nor written twice. -/
  | malformed

namespace Text

/-- A text without braces. -/
def Plain (s : String) : Prop := ∀ c ∈ s.toList, c ≠ '\x7b' ∧ c ≠ '\x7d'

instance (s : String) : Decidable (Plain s) :=
  List.decidableBAll (fun c => c ≠ '\x7b' ∧ c ≠ '\x7d') s.toList

/-- Where the filling of a template is: in text, behind the name of a slot as far as it has been
read, or behind a brace that has to be written twice. -/
inductive FillState where
  | text
  | slot (name : List Char)
  | brace

/-- Fills the slots of a template from left to right. -/
def fillFrom (value? : String → Option String) :
    FillState → List Char → Except TemplateFault (List Char)
  | .text, [] => .ok []
  | .text, c :: rest =>
    if c = '\x7b' then fillFrom value? (.slot []) rest
    else if c = '\x7d' then fillFrom value? .brace rest
    else (fillFrom value? .text rest).map (c :: ·)
  | .slot _, [] => .error .malformed
  | .slot name, c :: rest =>
    if c = '\x7d' then
      match value? (String.ofList name) with
      | some value => (fillFrom value? .text rest).map (value.toList ++ ·)
      | none => .error (.missing ⟨String.ofList name⟩)
    else if c = '\x7b' then
      if name = [] then (fillFrom value? .text rest).map ('\x7b' :: ·) else .error .malformed
    else fillFrom value? (.slot (name ++ [c])) rest
  | .brace, [] => .error .malformed
  | .brace, c :: rest =>
    if c = '\x7d' then (fillFrom value? .text rest).map ('\x7d' :: ·) else .error .malformed

/-- A template with its slots filled. -/
def fill (value? : String → Option String) (template : String) : Except TemplateFault String :=
  (fillFrom value? .text template.toList).map String.ofList

variable (value? : String → Option String)

/-- Text in front of a slot is copied. -/
theorem fillFrom_append {s : List Char} (h : ∀ c ∈ s, c ≠ '\x7b' ∧ c ≠ '\x7d')
    (rest : List Char) :
    fillFrom value? .text (s ++ rest) = (fillFrom value? .text rest).map (s ++ ·) := by
  induction s with
  | nil =>
      show fillFrom value? .text rest = (fillFrom value? .text rest).map id
      rw [Except.map_id]
      rfl
  | cons c s ih =>
      obtain ⟨hopen, hclose⟩ := h c List.mem_cons_self
      rw [List.cons_append, fillFrom, if_neg hopen, if_neg hclose,
        ih fun d hd => h d (List.mem_cons_of_mem c hd)]
      cases fillFrom value? .text rest <;> rfl

/-- The name of a slot is read up to the brace that closes it. -/
theorem fillFrom_name {s : List Char} (h : ∀ c ∈ s, c ≠ '\x7b' ∧ c ≠ '\x7d')
    (before rest : List Char) :
    fillFrom value? (.slot before) (s ++ '\x7d' :: rest) =
      match value? (String.ofList (before ++ s)) with
      | some value => (fillFrom value? .text rest).map (value.toList ++ ·)
      | none => .error (.missing ⟨String.ofList (before ++ s)⟩) := by
  induction s generalizing before with
  | nil =>
      rw [List.nil_append, List.append_nil, fillFrom]
      rfl
  | cons c s ih =>
      obtain ⟨hopen, hclose⟩ := h c List.mem_cons_self
      rw [List.cons_append, fillFrom]
      simp only [if_neg hopen, if_neg hclose]
      rw [ih (fun d hd => h d (List.mem_cons_of_mem c hd)), List.append_assoc,
        List.singleton_append]

/-- A template without a slot says what it is. -/
theorem fill_plain {s : String} (h : Plain s) : fill value? s = .ok s := by
  have hcopied := fillFrom_append value? h []
  rw [List.append_nil] at hcopied
  unfold fill
  rw [hcopied]
  show Except.ok (String.ofList (s.toList ++ [])) = _
  rw [List.append_nil, String.ofList_toList]

/-- **A slot is filled with its value as it is**, whatever characters are in that. -/
theorem fill_slot {before name after : String} (hbefore : Plain before) (hname : Plain name)
    (hafter : Plain after) :
    fill value? (before ++ "\x7b" ++ name ++ "\x7d" ++ after) =
      match value? name with
      | some value => .ok (before ++ value ++ after)
      | none => .error (.missing ⟨name⟩) := by
  have hlist : (before ++ "\x7b" ++ name ++ "\x7d" ++ after).toList
      = before.toList ++ '\x7b' :: (name.toList ++ '\x7d' :: after.toList) := by
    simp
  have hrest := fillFrom_append value? hafter []
  rw [List.append_nil] at hrest
  unfold fill
  rw [hlist, fillFrom_append value? hbefore, fillFrom, if_pos rfl, fillFrom_name value? hname,
    List.nil_append, String.ofList_toList, hrest]
  cases value? name with
  | none => rfl
  | some value =>
      show Except.ok (String.ofList (before.toList ++ (value.toList ++ (after.toList ++ [])))) = _
      rw [List.append_nil, ← List.append_assoc, ← String.toList_append, ← String.toList_append,
        String.ofList_toList]

end Text

/-! ## §2. The words for a code. -/

/-- The template for a code. -/
def ErrorCode.template : ErrorCode → String
  | .inconsistentCellCount => "inconsistent cell count within the table"
  | .unbalancedEventStream => "Unbalanced event stream: \x7bdetails\x7d"
  | .multipleErrors => "Parser errors:\n\x7bdetails\x7d"

/-- The texts that named details put into slots. -/
def Details.value? (details : Details) (name : String) : Option String :=
  (details.lookup name).map Json.display

/-- What a template says: itself if it has no slot for details; else what stands before the slot,
the details as they are, and what stands behind it. -/
inductive Template.Says (details : Details) : String → String → Prop
  | plain {template : String} : Text.Plain template → Says details template template
  | slot {before after : String} {value : Json} : Text.Plain before → Text.Plain after →
      details.lookup "details" = some value →
      Says details (before ++ "\x7b" ++ "details" ++ "\x7d" ++ after)
        (before ++ value.display ++ after)

/-- A template has a slot for details, and none are given. -/
def Template.Lacks (details : Details) (template : String) : Prop :=
  details.lookup "details" = none ∧ ∃ before after, Text.Plain before ∧ Text.Plain after
    ∧ template = before ++ "\x7b" ++ "details" ++ "\x7d" ++ after

namespace ErrorCode

/-- A template is the fixed part of a message, with the slot for details behind it if there is
one. -/
theorem template_eq (code : ErrorCode) :
    Text.Plain code.lead ∧ code.template = if code.hasSlot
      then code.lead ++ "\x7b" ++ "details" ++ "\x7d" ++ "" else code.lead := by
  cases code <;> decide

end ErrorCode

theorem Template.Says.fill_eq {details : Details} {template words : String}
    (h : Says details template words) : Text.fill details.value? template = .ok words := by
  cases h with
  | plain hplain => exact Text.fill_plain _ hplain
  | slot hbefore hafter hvalue =>
      rw [Text.fill_slot _ hbefore (by decide) hafter, Details.value?, hvalue]
      rfl

theorem Template.Lacks.fill_eq {details : Details} {template : String}
    (h : Lacks details template) :
    Text.fill details.value? template = .error (.missing ⟨"details"⟩) := by
  obtain ⟨hnone, before, after, hbefore, hafter, rfl⟩ := h
  rw [Text.fill_slot _ hbefore (by decide) hafter, Details.value?, hnone]
  rfl

/-- The place of an error, as its message shows it in front. -/
def front : Option Location → String
  | some l => "(" ++ toString l.line.toNat ++ ":" ++ toString l.column.toNat ++ "): "
  | none => ""

theorem placed_eq (location : Option Location) (message : String) :
    placed location message = front location ++ message := by
  cases location with
  | none => exact (String.empty_append).symm
  | some l => simp only [placed, front, Location.text, String.append_assoc]

namespace ErrorCode

variable {code : ErrorCode} {details : Details}

/-- Either the words for a code are what its template says, or the template lacks details. -/
theorem fill_cases (code : ErrorCode) (details : Details) :
    (∃ words, code.fill details = .ok words ∧ Template.Says details code.template words)
      ∨ (code.fill details = .error ⟨"details"⟩ ∧ Template.Lacks details code.template) := by
  obtain ⟨hlead, htemplate⟩ := code.template_eq
  unfold fill
  rw [htemplate]
  cases code.hasSlot with
  | false => exact .inl ⟨code.lead, rfl, .plain hlead⟩
  | true =>
      cases hvalue : details.lookup "details" with
      | none => exact .inr ⟨rfl, hvalue, code.lead, "", hlead, by decide, rfl⟩
      | some value =>
          refine .inl ⟨code.lead ++ value.display ++ "", ?_, .slot hlead (by decide) hvalue⟩
          rw [String.append_empty]
          rfl

/-- **The words for a code are its template, filled.** -/
theorem fill_template (code : ErrorCode) (details : Details) :
    Text.fill details.value? code.template
      = (code.fill details).mapError TemplateFault.missing := by
  obtain ⟨words, hout, hsaid⟩ | ⟨hout, hlacks⟩ := code.fill_cases details
  · rw [hout, hsaid.fill_eq]
    rfl
  · rw [hout, hlacks.fill_eq]
    rfl

theorem fill_eq_ok_iff {words : String} :
    code.fill details = .ok words ↔ Template.Says details code.template words := by
  have hfill := code.fill_template details
  obtain ⟨others, hout, hsaid⟩ | ⟨hout, -⟩ := code.fill_cases details
  · rw [hout] at hfill ⊢
    constructor
    · rintro ⟨⟩
      exact hsaid
    · intro h
      rw [h.fill_eq] at hfill
      exact congrArg Except.ok (Except.ok.inj hfill).symm
  · rw [hout] at hfill ⊢
    refine ⟨nofun, fun h => ?_⟩
    rw [h.fill_eq] at hfill
    cases hfill

theorem fill_eq_error_iff {missing : MissingDetail} :
    code.fill details = .error missing
      ↔ missing = ⟨"details"⟩ ∧ Template.Lacks details code.template := by
  have hfill := code.fill_template details
  obtain ⟨words, hout, -⟩ | ⟨hout, hlacks⟩ := code.fill_cases details
  · rw [hout] at hfill ⊢
    refine ⟨nofun, fun h => ?_⟩
    rw [h.2.fill_eq] at hfill
    cases hfill
  · rw [hout]
    constructor
    · rintro ⟨⟩
      exact ⟨rfl, hlacks⟩
    · rintro ⟨rfl, -⟩
      rfl

theorem placed_fill_eq_ok_iff {location : Option Location} {m : String} :
    (code.fill details).map (placed location) = .ok m
      ↔ ∃ words, Template.Says details code.template words ∧ front location ++ words = m := by
  cases hout : code.fill details with
  | ok words =>
      have hsaid : ∀ {others}, Template.Says details code.template others → others = words := by
        intro others h
        rw [← fill_eq_ok_iff, hout] at h
        exact (Except.ok.inj h).symm
      show Except.ok (placed location words) = Except.ok m ↔ _
      rw [placed_eq, Except.ok.injEq]
      constructor
      · exact fun h => ⟨words, fill_eq_ok_iff.1 hout, h⟩
      · rintro ⟨others, hothers, h⟩
        rwa [hsaid hothers] at h
  | error missing =>
      refine ⟨nofun, ?_⟩
      rintro ⟨words, h, -⟩
      rw [← fill_eq_ok_iff, hout] at h
      cases h

theorem placed_fill_eq_error_iff {location : Option Location} {missing : MissingDetail} :
    (code.fill details).map (placed location) = .error missing
      ↔ missing = ⟨"details"⟩ ∧ Template.Lacks details code.template := by
  rw [← fill_eq_error_iff]
  cases code.fill details with
  | ok words => exact ⟨nofun, nofun⟩
  | error _ => exact ⟨fun h => h, fun h => h⟩

end ErrorCode

/-! ## §3. Trees of errors. -/

mutual

/-- What the message of an error says: its place and the words of its template, or, line by line,
what the errors say that it puts together. -/
inductive Diagnostic.Says : Diagnostic → String → Prop
  | general {code : ErrorCode} {details : Details} {words : String} (location : Option Location) :
      Template.Says details code.template words →
      Says (.general code location details) (front location ++ words)
  | salvaged {code : ErrorCode} {details : Details} {words : String} (location : Option Location)
      (kept : Value) : Template.Says details code.template words →
      Says (.salvaged code location details kept) (front location ++ words)
  | raggedTable (location : Option Location) (kept : Value) :
      Says (.raggedTable location kept)
        (front location ++ "inconsistent cell count within the table")
  | composite {parts : List Diagnostic} {lines : List String} : Diagnostic.SayAll parts lines →
      Says (.composite parts) ("Parser errors:\n" ++ "\n".intercalate lines)
  | ready (text : String) : Says (.ready text) text

/-- What the messages of several errors say, in their order. -/
inductive Diagnostic.SayAll : List Diagnostic → List String → Prop
  | nil : SayAll [] []
  | cons {d : Diagnostic} {line : String} {rest : List Diagnostic} {lines : List String} :
      d.Says line → SayAll rest lines → SayAll (d :: rest) (line :: lines)

end

namespace Diagnostic

mutual

/-- The errors in a tree that are not put together from others. -/
def leaves : Diagnostic → List Diagnostic
  | .composite parts => leavesOfAll parts
  | d => [d]

/-- The same for several trees. -/
def leavesOfAll : List Diagnostic → List Diagnostic
  | [] => []
  | d :: rest => d.leaves ++ leavesOfAll rest

end

/-- Whether the template of a leaf has a slot for details that are not given. -/
def LacksDetails : Diagnostic → Prop
  | .general code _ details => Template.Lacks details code.template
  | .salvaged code _ details _ => Template.Lacks details code.template
  | _ => False

/-! ## §4. What is said, and when nothing is. -/

mutual

/-- **The message of an error is what it says.** -/
theorem message_eq_ok_iff : ∀ (d : Diagnostic) (m : String), d.message = .ok m ↔ d.Says m
  | .general code location details, m => by
      unfold message
      rw [ErrorCode.placed_fill_eq_ok_iff]
      constructor
      · rintro ⟨words, h, rfl⟩
        exact .general location h
      · intro h
        cases h with
        | general _ h => exact ⟨_, h, rfl⟩
  | .salvaged code location details kept, m => by
      unfold message
      rw [ErrorCode.placed_fill_eq_ok_iff]
      constructor
      · rintro ⟨words, h, rfl⟩
        exact .salvaged location kept h
      · intro h
        cases h with
        | salvaged _ _ h => exact ⟨_, h, rfl⟩
  | .raggedTable location kept, m => by
      unfold message
      rw [placed_eq, Except.ok.injEq]
      constructor
      · rintro rfl
        exact .raggedTable location kept
      · intro h
        cases h with
        | raggedTable => rfl
  | .composite parts, m => by
      have hparts := messages_eq_ok_iff parts
      unfold message
      cases hout : messages parts with
      | ok lines =>
          constructor
          · rintro ⟨⟩
            exact .composite ((hparts lines).1 hout)
          · intro h
            cases h with
            | @composite _ others h =>
                rw [(hparts others).2 h] at hout
                cases hout
                rfl
      | error missing =>
          refine ⟨nofun, fun h => ?_⟩
          cases h with
          | @composite _ others h =>
              rw [(hparts others).2 h] at hout
              cases hout
  | .ready text, m => by
      unfold message
      rw [Except.ok.injEq]
      constructor
      · rintro rfl
        exact .ready text
      · intro h
        cases h with
        | ready => rfl
termination_by structural d => d

/-- The messages of several errors are what they say. -/
theorem messages_eq_ok_iff : ∀ (ds : List Diagnostic) (lines : List String),
    messages ds = .ok lines ↔ SayAll ds lines
  | [], lines => by
      unfold messages
      rw [Except.ok.injEq]
      constructor
      · rintro rfl
        exact .nil
      · intro h
        cases h with
        | nil => rfl
  | d :: rest, lines => by
      have hd := message_eq_ok_iff d
      have hrest := messages_eq_ok_iff rest
      unfold messages
      constructor
      · intro h
        split at h
        · cases h
        next line hline =>
          split at h
          next others hothers =>
            cases h
            exact .cons ((hd line).1 hline) ((hrest others).1 hothers)
          · cases h
      · intro h
        cases h with
        | @cons _ line _ others hline hothers =>
            rw [(hd line).2 hline, (hrest others).2 hothers]
termination_by structural ds => ds

end

mutual

/-- **There is no message exactly when a leaf lacks its details.** -/
theorem message_eq_error_iff : ∀ (d : Diagnostic) (missing : MissingDetail),
    d.message = .error missing ↔ missing = ⟨"details"⟩ ∧ ∃ leaf ∈ d.leaves, leaf.LacksDetails
  | .general code location details, missing => by
      unfold message leaves
      rw [ErrorCode.placed_fill_eq_error_iff]
      simp only [List.mem_singleton, exists_eq_left, LacksDetails]
  | .salvaged code location details kept, missing => by
      unfold message leaves
      rw [ErrorCode.placed_fill_eq_error_iff]
      simp only [List.mem_singleton, exists_eq_left, LacksDetails]
  | .raggedTable location kept, missing => by
      unfold message leaves
      refine ⟨nofun, ?_⟩
      rintro ⟨-, leaf, hleaf, h⟩
      rw [List.mem_singleton.1 hleaf] at h
      exact h.elim
  | .composite parts, missing => by
      rw [leaves, ← messages_eq_error_iff parts]
      unfold message
      cases messages parts with
      | ok lines => exact ⟨nofun, nofun⟩
      | error other =>
          rw [Except.error.injEq, Except.error.injEq]
  | .ready text, missing => by
      unfold message leaves
      refine ⟨nofun, ?_⟩
      rintro ⟨-, leaf, hleaf, h⟩
      rw [List.mem_singleton.1 hleaf] at h
      exact h.elim
termination_by structural d => d

/-- The same for several errors: the first of them without a message decides. -/
theorem messages_eq_error_iff : ∀ (ds : List Diagnostic) (missing : MissingDetail),
    messages ds = .error missing
      ↔ missing = ⟨"details"⟩ ∧ ∃ leaf ∈ leavesOfAll ds, leaf.LacksDetails
  | [], missing => by
      unfold messages leavesOfAll
      refine ⟨nofun, ?_⟩
      rintro ⟨-, leaf, hleaf, -⟩
      cases hleaf
  | d :: rest, missing => by
      have hd := message_eq_error_iff d
      have hrest := messages_eq_error_iff rest
      have hsplit : (∃ leaf ∈ leavesOfAll (d :: rest), leaf.LacksDetails)
          ↔ (∃ leaf ∈ d.leaves, leaf.LacksDetails)
            ∨ ∃ leaf ∈ leavesOfAll rest, leaf.LacksDetails := by
        rw [leavesOfAll]
        simp only [List.mem_append, or_and_right, exists_or]
      rw [hsplit, and_or_left, ← hd, ← hrest, messages]
      cases hout : d.message with
      | error other =>
          -- whatever is missing behind the first error is missing by the same name
          have hother := ((hd other).1 hout).1
          simp only [Except.error.injEq]
          constructor
          · exact .inl
          · rintro (h | h)
            · exact h
            · rw [hother, ((hrest missing).1 h).1]
      | ok line =>
          cases messages rest with
          | ok lines => simp
          | error other => simp
termination_by structural ds => ds

end

end Diagnostic

/-! ## §5. Messages and reports. -/

/-- The place of an error in its report. -/
def placeMember : Option Location → List (String × Json)
  | some l => [("location", .object [("line", .int l.line.toNat), ("column", .int l.column.toNat)])]
  | none => []

/-- **The message of a tree of errors** is what the tree says, with all texts as they are, and what
its report holds beside the file and the place of the error.  There is one unless the template of a
leaf has a slot for details that are not given; then that is what is missing. -/
theorem message_of_error_tree (d : Diagnostic) :
    (∀ m, d.message = .ok m ↔ d.Says m)
      ∧ ((∃ m, d.message = .ok m) ↔ ∀ leaf ∈ d.leaves, ¬ leaf.LacksDetails)
      ∧ (∀ missing, d.message = .error missing
          ↔ missing = ⟨"details"⟩ ∧ ∃ leaf ∈ d.leaves, leaf.LacksDetails)
      ∧ (∀ m uri, d.message = .ok m →
        ∃ report, d.attachment? uri = some report
          ∧ report.toJson = .object
            [ ("data", .text m),
              ("source", .object (("uri", .text uri) :: placeMember d.location?)) ])
      ∧ ∀ code details, Text.fill details.value? (ErrorCode.template code)
          = (code.fill details).mapError TemplateFault.missing := by
  refine ⟨d.message_eq_ok_iff, ?_, d.message_eq_error_iff, ?_, ErrorCode.fill_template⟩
  · cases hout : d.message with
    | ok m =>
        refine ⟨fun _ leaf hleaf hlacks => ?_, fun _ => ⟨m, rfl⟩⟩
        have herror := (d.message_eq_error_iff ⟨"details"⟩).2 ⟨rfl, leaf, hleaf, hlacks⟩
        rw [hout] at herror
        cases herror
    | error missing =>
        obtain ⟨-, leaf, hleaf, hlacks⟩ := (d.message_eq_error_iff missing).1 hout
        exact ⟨nofun, fun h => absurd hlacks (h leaf hleaf)⟩
  · intro m uri hm
    refine ⟨⟨m, uri, d.location?⟩, ?_, ?_⟩
    · unfold Diagnostic.attachment?
      rw [hm]
    · unfold Attachment.toJson
      cases d.location? <;> rfl

/-- Errors put together twice, with braces and line feeds in their details. -/
def nestedErrors : Diagnostic :=
  .composite
    [ .general .unbalancedEventStream (some ⟨3, 7⟩)
        [("why", .null), ("details", .text "\x7bdetails\x7d\n\x7b0\x7d")],
      .composite [.raggedTable (some ⟨5, 1⟩) .null, .composite []],
      .salvaged .inconsistentCellCount none [] .null ]

/-- The same errors behind one that lacks its details. -/
def unfinishedErrors : Diagnostic :=
  .composite [.salvaged .multipleErrors none [("detail", .text "x")] .null, nestedErrors]

/-- What the errors say that are put together. -/
def nestedLines : String :=
  "Parser errors:\n" ++ "(3:7): Unbalanced event stream: \x7bdetails\x7d\n\x7b0\x7d\n" ++
    "Parser errors:\n(5:1): inconsistent cell count within the table\nParser errors:\n\n" ++
    "inconsistent cell count within the table"

theorem message_of_nestedErrors :
    nestedErrors.message = .ok nestedLines ∧ nestedErrors.Says nestedLines
      ∧ (∀ leaf ∈ nestedErrors.leaves, ¬ leaf.LacksDetails)
      ∧ (∃ report, nestedErrors.attachment? "a.feature" = some report
        ∧ report.toJson = .object
          [("data", .text nestedLines), ("source", .object [("uri", .text "a.feature")])])
      ∧ unfinishedErrors.message = .error ⟨"details"⟩ := by
  obtain ⟨hsaid, hleaves, -, hreport, -⟩ := message_of_error_tree nestedErrors
  have hmessage : nestedErrors.message = .ok nestedLines := by rfl
  refine ⟨hmessage, (hsaid _).1 hmessage, hleaves.1 ⟨_, hmessage⟩, hreport _ _ hmessage, ?_⟩
  obtain ⟨-, -, hmissing, -⟩ := message_of_error_tree unfinishedErrors
  exact (hmissing ⟨"details"⟩).2
    ⟨rfl, _, .head _, rfl, "Parser errors:\n", "", by decide, by decide, rfl⟩

end Gherkin
