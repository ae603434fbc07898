/-
  Gherkin.Proofs.Lines
  ────────────────────
  **LINES SURVIVE BEING JOINED.**

  Descriptions and doc strings are lines put together with line feeds, and
  splitting the text at its line feeds gives the lines back.  The two kinds of
  text differ in one point: a description drops the blank lines at its end.

    • `Text.splitLines_joinLines` — joining, then splitting,
    • `Text.strip_eq_empty_iff`   — a line is blank when stripping it leaves
      nothing; `Text.blank` is the test for that,
    • `LastSeen`                  — the last line that is not blank, with what
      stands before it and behind it,
    • `LastSeen.descriptionText`  — a description is made of the lines up to
      that one,
    • `lines_survive_joining`     — what is lost of a description, and that
      nothing is lost of a doc string.
-/
import Gherkin.Assembly
import Mathlib.Data.List.TakeWhile
import Mathlib.Tactic.Push

namespace Gherkin

namespace Text

/-! ## §1. Splitting what was joined. -/

/-- The lines of a text: what stands between its line feeds. -/
def splitLines (s : String) : List String := (s.split '\n').toList.map fun line => line.copy

/-- **Joining lines and splitting the text** gives the lines back. -/
theorem splitLines_joinLines {lines : List String} (h : ∀ l ∈ lines, '\n' ∉ l.toList)
    (hne : lines ≠ []) : splitLines (joinLines lines) = lines := by
  have hsplit := String.toList_split_intercalate h
  rw [if_neg hne] at hsplit
  exact hsplit

/-- Only no lines at all and one empty line make the empty text. -/
theorem joinLines_eq_empty_iff {lines : List String} :
    joinLines lines = "" ↔ lines = [] ∨ lines = [""] := by
  unfold joinLines
  match lines with
  | [] => simp
  | [l] => simp
  | l :: m :: rest =>
      -- two lines have a line feed between them
      rw [← String.toList_inj, String.toList_intercalate, List.map_cons, List.map_cons,
        List.intercalate_cons_cons]
      simp

/-! ## §2. Blank lines. -/

/-- The text without the blank characters at its two ends. -/
def strip (s : String) : String := String.ofList (trimBoth isBlank s.toList)

theorem trimBoth_eq_nil_iff {p : Char → Bool} {cs : List Char} :
    trimBoth p cs = [] ↔ ∀ c ∈ cs, p c = true := by
  unfold trimBoth
  rw [List.reverse_eq_nil_iff, List.dropWhile_eq_nil_iff]
  simp only [List.mem_reverse]
  constructor
  · intro h
    -- what is left at the front starts with a character to be dropped, so nothing is left
    cases hfront : cs.dropWhile p with
    | nil => exact List.dropWhile_eq_nil_iff.1 hfront
    | cons c rest =>
        have hkept := List.head?_dropWhile_not p cs
        rw [hfront] at h hkept
        replace hkept : p c = false := hkept
        rw [h c List.mem_cons_self] at hkept
        cases hkept
  · intro h c hc
    exact h c (List.dropWhile_sublist p |>.mem hc)

/-- **A line is blank** when stripping it leaves nothing. -/
theorem strip_eq_empty_iff {s : String} : strip s = "" ↔ blank s = true := by
  unfold strip blank
  rw [String.ofList_eq_empty_iff, trimBoth_eq_nil_iff, List.all_eq_true]

/-! ## §3. The blank lines at the end. -/

/-- Blank lines behind others are dropped with them. -/
theorem dropTrailingBlank_append {blanks : List String} (h : ∀ l ∈ blanks, blank l = true)
    (lines : List String) : dropTrailingBlank (lines ++ blanks) = dropTrailingBlank lines := by
  unfold dropTrailingBlank
  rw [List.reverse_append,
    List.dropWhile_append_of_pos fun l hl => h l (List.mem_reverse.1 hl)]

/-- Nothing is dropped behind a line that is not blank, nor before it. -/
theorem dropTrailingBlank_concat {last : String} (h : blank last = false) (front : List String) :
    dropTrailingBlank (front ++ [last]) = front ++ [last] := by
  unfold dropTrailingBlank
  rw [List.reverse_append, List.reverse_singleton, List.singleton_append,
    List.dropWhile_cons_of_neg (by rw [h]; exact Bool.false_ne_true), List.reverse_cons,
    List.reverse_reverse]

end Text

/-! ## §4. Descriptions. -/

/-- The last of some lines that is not blank, with the lines before it and behind it. -/
structure LastSeen (tokens front : List Token) (last : Token) (blanks : List Token) : Prop where
  split : tokens = front ++ last :: blanks
  seen : Text.strip last.text ≠ ""
  behind : ∀ t ∈ blanks, Text.strip t.text = ""

/-- Lines that are not all blank have a last one that is not. -/
theorem exists_lastSeen {tokens : List Token} (h : ∃ t ∈ tokens, Text.strip t.text ≠ "") :
    ∃ front last blanks, LastSeen tokens front last blanks := by
  induction tokens with
  | nil =>
      obtain ⟨t, ht, -⟩ := h
      cases ht
  | cons t rest ih =>
      by_cases hrest : ∃ u ∈ rest, Text.strip u.text ≠ ""
      · obtain ⟨front, last, blanks, rfl, hseen, hbehind⟩ := ih hrest
        exact ⟨t :: front, last, blanks, rfl, hseen, hbehind⟩
      · -- all that follow are blank, so it is this one
        have hblank : ∀ u ∈ rest, Text.strip u.text = "" := by
          intro u hu
          by_contra hne
          exact hrest ⟨u, hu, hne⟩
        obtain ⟨u, hu, hne⟩ := h
        rcases List.mem_cons.1 hu with rfl | hu
        · exact ⟨[], u, rest, rfl, hne, hblank⟩
        · exact absurd (hblank u hu) hne

/-- Blank lines behind a description are not part of it. -/
theorem descriptionText_append {blanks : List Token} (h : ∀ t ∈ blanks, Text.strip t.text = "")
    (tokens : List Token) : descriptionText (tokens ++ blanks) = descriptionText tokens := by
  have hblanks : ∀ l ∈ blanks.map Token.text, Text.blank l = true := by
    intro l hl
    obtain ⟨t, ht, rfl⟩ := List.mem_map.1 hl
    exact Text.strip_eq_empty_iff.1 (h t ht)
  unfold descriptionText Text.paragraph
  rw [List.map_append, Text.dropTrailingBlank_append hblanks]

/-- A description that ends with a line that is not blank has all its lines. -/
theorem descriptionText_concat {last : Token} (h : Text.strip last.text ≠ "")
    (front : List Token) :
    descriptionText (front ++ [last]) = Text.joinLines ((front ++ [last]).map Token.text) := by
  have hlast : Text.blank last.text = false := by
    rw [← Bool.not_eq_true, ← Text.strip_eq_empty_iff]
    exact h
  unfold descriptionText Text.paragraph
  rw [List.map_append, List.map_singleton, Text.dropTrailingBlank_concat hlast]

/-- **A description is made of the lines up to the last one that is not blank.** -/
theorem LastSeen.descriptionText {tokens front blanks : List Token} {last : Token}
    (h : LastSeen tokens front last blanks) :
    descriptionText tokens = Text.joinLines ((front ++ [last]).map Token.text) := by
  rw [h.split, List.append_cons, descriptionText_append h.behind, descriptionText_concat h.seen]

theorem descriptionText_eq_empty_iff {tokens : List Token} :
    descriptionText tokens = "" ↔ ∀ t ∈ tokens, Text.strip t.text = "" := by
  constructor
  · intro hempty
    by_contra hsome
    push Not at hsome
    obtain ⟨front, last, blanks, hlast⟩ := exists_lastSeen hsome
    rw [hlast.descriptionText, Text.joinLines_eq_empty_iff, List.map_append] at hempty
    -- the last line can be seen, so it is not the empty one
    rcases hempty with hnone | hone
    · simp at hnone
    · have hlength : front.map Token.text = [] ∧ last.text = "" := by
        simpa using List.append_eq_singleton_iff.1 hone
      exact hlast.seen (by rw [hlength.2]; decide)
  · intro h
    exact descriptionText_append h []

/-! ## §5. Both kinds of text. -/

/-- The doc string with the given lines behind its separator. -/
def DocString.ofLines (separator : Token) (lines : List Token) : DocString :=
  { location := separator.location
    contentType := separator.text
    content := Text.joinLines (lines.map Token.text)
    delimiter := separator.keyword }

theorem DocString.ofNode?_eq {n : Node} {separator : Token}
    (h : n.token? .docStringSeparator = some separator) :
    DocString.ofNode? n = some (.ofLines separator (n.tokens .other)) := by
  unfold ofNode?
  rw [h]
  rfl

/-- **Lines survive being joined**, but for the blank ones at the end of a description.  A
description is empty when all its lines are blank, blank lines behind it do not count, and splitting
it gives the lines up to the last one that is not blank, just as they were read.  Splitting a doc
string gives all its lines. -/
theorem lines_survive_joining :
    (∀ tokens, descriptionText tokens = "" ↔ ∀ t ∈ tokens, Text.strip t.text = "")
      ∧ (∀ tokens blanks, (∀ t ∈ blanks, Text.strip t.text = "") →
        descriptionText (tokens ++ blanks) = descriptionText tokens)
      ∧ (∀ tokens, (∃ t ∈ tokens, Text.strip t.text ≠ "") →
        ∃ front last blanks, LastSeen tokens front last blanks)
      ∧ (∀ tokens front last blanks, LastSeen tokens front last blanks →
        (∀ t ∈ tokens, '\n' ∉ t.text.toList) →
        Text.splitLines (descriptionText tokens) = (front ++ [last]).map Token.text)
      ∧ (∀ (source : Source) (n : Node), n.type = .description →
        n.assemble source = .ok (.text (descriptionText (n.tokens .other))))
      ∧ ∀ (source : Source) (n : Node) (separator : Token), n.type = .docString →
        n.token? .docStringSeparator = some separator → n.tokens .other ≠ [] →
        (∀ t ∈ n.tokens .other, '\n' ∉ t.text.toList) →
        ∃ d : DocString, n.assemble source = .ok (.element (.docString d))
          ∧ Text.splitLines d.content = (n.tokens .other).map Token.text := by
  -- lines that are read from tokens without a line feed have none
  have hlines : ∀ {tokens : List Token}, (∀ t ∈ tokens, '\n' ∉ t.text.toList) →
      ∀ l ∈ tokens.map Token.text, '\n' ∉ l.toList := by
    intro tokens h l hl
    obtain ⟨t, ht, rfl⟩ := List.mem_map.1 hl
    exact h t ht
  refine ⟨fun _ => descriptionText_eq_empty_iff, fun tokens blanks h => descriptionText_append h _,
    fun _ => exists_lastSeen, ?_, ?_, ?_⟩
  · intro tokens front last blanks hlast hfeeds
    rw [hlast.descriptionText]
    apply Text.splitLines_joinLines
    · apply hlines
      intro t ht
      apply hfeeds
      rw [hlast.split, List.append_cons]
      exact List.mem_append_left _ ht
    · simp
  · intro source n htype
    unfold Node.assemble
    rw [htype]
  · intro source n separator htype hseparator hsome hfeeds
    refine ⟨DocString.ofLines separator (n.tokens .other), ?_,
      Text.splitLines_joinLines (hlines hfeeds) (by simpa using hsome)⟩
    unfold Node.assemble
    rw [htype]
    show Except.ok (Value.ofElement? .docString (DocString.ofNode? n)) = _
    rw [DocString.ofNode?_eq hseparator]
    rfl

/-- Lines with the given texts. -/
def linesOf (texts : List String) : List Token :=
  texts.map fun text => { type := .other, location := ⟨1, 1⟩, text }

/-- The texts of four lines; the first and the third are blank. -/
def inkedTexts : List String := ["", "  a  b ", "\u2003", "c\u00a0d"]

/-- The texts of three blank lines. -/
def blankTexts : List String := ["\t", "", "\u001f\u3000"]

/-- A doc string with all these lines between its separators. -/
def inkedDocString : Node :=
  { type := .docString
    children :=
      [ (.leaf .docStringSeparator,
          [ .token { type := .docStringSeparator, location := ⟨1, 3⟩, keyword := "```" },
            .token { type := .docStringSeparator, location := ⟨9, 3⟩, keyword := "```" } ]),
        (.leaf .other, (linesOf (inkedTexts ++ blankTexts)).map .token) ] }

theorem lines_survive_inkedTexts :
    (∀ t ∈ linesOf blankTexts, Text.strip t.text = "")
      ∧ descriptionText (linesOf inkedTexts ++ linesOf blankTexts)
        = descriptionText (linesOf inkedTexts)
      ∧ Text.splitLines (descriptionText (linesOf inkedTexts ++ linesOf blankTexts)) = inkedTexts
      ∧ ∃ d : DocString, inkedDocString.assemble ⟨"", []⟩ = .ok (.element (.docString d))
        ∧ Text.splitLines d.content = inkedTexts ++ blankTexts := by
  obtain ⟨-, happend, -, hdescription, -, hdocString⟩ := lines_survive_joining
  have hblank : ∀ t ∈ linesOf blankTexts, Text.strip t.text = "" := by decide
  have hlast : LastSeen (linesOf inkedTexts ++ linesOf blankTexts)
      (linesOf ["", "  a  b ", "\u2003"])
      { type := .other, location := ⟨1, 1⟩, text := "c\u00a0d" } (linesOf blankTexts) :=
    ⟨rfl, by decide, hblank⟩
  exact ⟨hblank, happend _ _ hblank, hdescription _ _ _ _ hlast (by decide),
    hdocString ⟨"", []⟩ inkedDocString _ rfl rfl (by decide) (by decide)⟩

end Gherkin
