/-
  Gherkin.Proofs.Tables
  ─────────────────────
  **WHAT BECOMES OF THE ROWS OF A TABLE.**

  Any list of tokens can be taken for a table, with any columns and any number
  of items.  Three things can come of it, and they are told apart by the items
  alone:

    • `Outside` — a column is out of range; the first one is refused,
      whatever the numbers of items are (`FirstOutside`),
    • `RaggedRows` — otherwise, a row has another number of items than the
      first one; the first such row is told of (`FirstMismatch`),
    • or else all rows are made.

  `TableRow.Of` says what a row has to do with its token, and
  `tableRows_meets_spec` is the specification.
-/
import Gherkin.Proofs.Columns
import Gherkin.Proofs.Reports

namespace Gherkin

/-! ## §1. Columns out of range. -/

/-- Whether a column of an item of these tokens is out of range. -/
def Outside (tokens : List Token) : Prop := ∃ t ∈ tokens, ∃ i ∈ t.items, ¬ i.InRange

instance (tokens : List Token) : Decidable (Outside tokens) := by
  unfold Outside
  infer_instance

/-- An item whose column is out of range, behind items of these tokens whose columns are not. -/
inductive FirstOutside : List Token → Item → Prop
  | intro {tokens : List Token} {i : Item} (before after : List Item) :
      tokens.flatMap Token.items = before ++ i :: after → (∀ k ∈ before, k.InRange) →
      ¬ i.InRange → FirstOutside tokens i

theorem isSome_firstRejection?_iff {tokens : List Token} :
    (∃ r, firstRejection? tokens = some r) ↔ Outside tokens := by
  rw [← Option.isSome_iff_exists, Option.isSome_iff_ne_none, Ne, firstRejection?_eq_none_iff]
  unfold Outside
  simp only [not_forall, exists_prop]

theorem firstRejection?_eq_some {tokens : List Token} {r : Rejection}
    (h : firstRejection? tokens = some r) : ∃ i, FirstOutside tokens i ∧ i.rejection = r := by
  obtain ⟨front, t, back, rfl, ht, hfront⟩ := List.findSome?_eq_some_iff.1 h
  obtain ⟨before, i, after, hitems, hi, hbefore⟩ := List.findSome?_eq_some_iff.1 ht
  obtain ⟨hrange, hr⟩ := Item.rejection?_eq_some hi
  refine ⟨i, .intro (front.flatMap Token.items ++ before) (after ++ back.flatMap Token.items)
    ?_ ?_ hrange, hr⟩
  · simp [hitems]
  · -- an item before this one is on an earlier token, or earlier on the same one
    intro k hk
    rcases List.mem_append.1 hk with hk | hk
    · obtain ⟨s, hs, hks⟩ := List.mem_flatMap.1 hk
      exact Item.rejection?_eq_none_iff.1 (List.findSome?_eq_none_iff.1 (hfront s hs) k hks)
    · exact Item.rejection?_eq_none_iff.1 (hbefore k hk)

/-! ## §2. The specification. -/

/-- Whether a cell is that of an item of a token. -/
structure TableCell.Of (t : Token) (i : Item) (c : TableCell) : Prop where
  line : c.location.line = t.location.line
  column : positionValue c.location.column = i.column
  value : c.value = i.text

/-- Whether a row is that of a token: at its place, with one cell per item in their order. -/
structure TableRow.Of (t : Token) (r : TableRow) : Prop where
  location : r.location = t.location
  cells : List.Forall₂ (TableCell.Of t) t.items r.cells

theorem Item.positionValue_place {i : Item} (h : i.InRange) (line : UInt32) :
    positionValue (i.place line).column = i.column := by
  obtain ⟨hlow, hhigh⟩ := h
  have hword : (UInt32.ofNat i.column.toNat).toNat = i.column.toNat := by
    rw [UInt32.toNat_ofNat']
    unfold maxPosition at hhigh
    omega
  show Int.ofNat (UInt32.ofNat i.column.toNat).toNat = i.column
  rw [hword]
  exact Int.toNat_of_nonneg hlow

theorem Token.row_of {t : Token} (h : ∀ i ∈ t.items, i.InRange) : TableRow.Of t t.row := by
  refine ⟨rfl, ?_⟩
  show List.Forall₂ _ t.items (t.items.map _)
  rw [List.forall₂_map_right_iff, List.forall₂_same]
  exact fun i hi => ⟨rfl, i.positionValue_place (h i hi) _, rfl⟩

/-- **The rows of a table meet their specification.**  A column out of range is refused, whatever
the numbers of items are.  Otherwise there is one row per token; if all have the same number of
items, the rows are returned, and if not, the first row that differs from the first one is told of,
and all rows are kept. -/
theorem tableRows_meets_spec (tokens : List Token) :
    (Outside tokens →
        ∃ i, FirstOutside tokens i ∧ tableRows tokens = .error (.rejected i.rejection))
      ∧ (¬ Outside tokens → ∃ rows, List.Forall₂ TableRow.Of tokens rows
        ∧ (¬ RaggedRows tokens → tableRows tokens = .ok rows)
        ∧ (RaggedRows tokens → ∃ t, FirstMismatch tokens t
          ∧ tableRows tokens = .error (.ragged t.location rows)
          ∧ ∀ first rest, rows = first :: rest → t.location = first.location →
            ∃ row ∈ rest, row.location = first.location)) := by
  constructor
  · intro houtside
    obtain ⟨r, hr⟩ := isSome_firstRejection?_iff.2 houtside
    obtain ⟨i, hi, rfl⟩ := firstRejection?_eq_some hr
    refine ⟨i, hi, ?_⟩
    rw [tableRows_outcome, hr]
  · intro hinside
    have hrange : ∀ t ∈ tokens, ∀ i ∈ t.items, i.InRange := by
      unfold Outside at hinside
      simpa only [not_exists, not_and, Decidable.not_not] using hinside
    have houtcome := tableRows_eq hrange
    -- the rows are made in any case, and returned or kept
    refine ⟨tokens.map Token.row, ?_, ?_, ?_⟩
    · rw [List.forall₂_map_right_iff, List.forall₂_same]
      exact fun t ht => t.row_of (hrange t ht)
    · intro hrows
      rw [houtcome, raggedToken?_eq_none_iff.2 hrows]
    · intro hrows
      cases ht : raggedToken? tokens with
      | none => exact absurd hrows (raggedToken?_eq_none_iff.1 ht)
      | some t =>
          rw [ht] at houtcome
          have hmismatch := raggedToken?_eq_some ht
          refine ⟨t, hmismatch, houtcome, ?_⟩
          intro first rest hfirst hlocation
          -- the mismatch is one of the rows behind the first one
          cases hmismatch with
          | @intro head t before after _ _ =>
              cases hfirst
              refine ⟨t.row, List.mem_map_of_mem ?_, hlocation⟩
              exact List.mem_append_right _ List.mem_cons_self

/-- Ragged rows with a column below zero. -/
def lowRows : List Token :=
  [ { type := .tableRow, location := ⟨1, 1⟩, items := [⟨3, "a"⟩] },
    { type := .tableRow, location := ⟨2, 1⟩, items := [⟨3, "b"⟩, ⟨-1, "c"⟩] } ]

/-- Rows of which the third one is too long and stands at the place of the first one. -/
def sharedRows : List Token :=
  [ { type := .tableRow, location := ⟨1, 1⟩, items := [⟨3, "a"⟩] },
    { type := .tableRow, location := ⟨2, 1⟩, items := [⟨3, "b"⟩] },
    { type := .tableRow, location := ⟨1, 1⟩, items := [⟨3, "c"⟩, ⟨5, "d"⟩] },
    { type := .tableRow, location := ⟨4, 1⟩ } ]

theorem tableRows_lowRows_sharedRows :
    RaggedRows lowRows
      ∧ (∃ i, FirstOutside lowRows i ∧ tableRows lowRows = .error (.rejected i.rejection)
        ∧ i.rejection = ⟨"Location", [⟨[.key "column"], .belowZero⟩]⟩)
      ∧ ∃ first rest, List.Forall₂ TableRow.Of sharedRows (first :: rest)
        ∧ tableRows sharedRows = .error (.ragged first.location (first :: rest))
        ∧ ∃ row ∈ rest, row.location = first.location := by
  have hlow : tableRows lowRows
      = .error (.rejected ⟨"Location", [⟨[.key "column"], .belowZero⟩]⟩) := rfl
  have hshared : tableRows sharedRows = .error (.ragged ⟨1, 1⟩ _) := rfl
  refine ⟨by decide, ?_, ?_⟩
  · obtain ⟨i, hi, hrejected⟩ := (tableRows_meets_spec lowRows).1 (by decide)
    exact ⟨i, hi, hrejected, Fault.rejected.inj (Except.error.inj (hrejected.symm.trans hlow))⟩
  · obtain ⟨rows, hrows, -, hragged⟩ := (tableRows_meets_spec sharedRows).2 (by decide)
    obtain ⟨t, -, herror, hplace⟩ := hragged (by decide)
    obtain ⟨hlocation, -⟩ := Fault.ragged.inj (Except.error.inj (herror.symm.trans hshared))
    cases hrows with
    | @cons _ first _ rest hfirst hrest =>
        have hfirstPlace : t.location = first.location := hlocation.trans hfirst.location.symm
        refine ⟨first, rest, .cons hfirst hrest, ?_, hplace first rest rfl hfirstPlace⟩
        rw [← hfirstPlace]
        exact herror

end Gherkin
