/-
  Gherkin.Proofs.Columns
  ──────────────────────
  **COLUMNS IN RANGE.**

  An item's column is any integer; it has to be in range only when the item
  becomes a cell or a tag.  What is made of items is made one by one, and the
  first column out of range is the fault of the whole (`mapM_outcome`):

    • `firstRejection?` — that fault, found among the items of tokens,
    • `TableRow.ofToken_outcome`, `Node.tags_outcome` — the row of a token and
      the tags of a node: written down directly, unless there is a fault,
    • `tableRows_outcome` — the rows of a table: a fault, or the first row that
      does not match the first one, found by counting items (`raggedToken?`),
      or else all rows.

  `Token.Fits` says that columns cannot go wrong for a token.  For such tokens
  `Node.tags_eq` and `tableRows_eq` leave the fault out.
-/
import Gherkin.Assembly
import Mathlib.Data.List.Basic

namespace Gherkin

/-! ## §1. Items whose columns fit. -/

/-- Whether the column of an item can be the column of a place. -/
def Item.InRange (i : Item) : Prop := 0 ≤ i.column ∧ i.column ≤ (maxPosition : Int)

instance (i : Item) : Decidable i.InRange := by
  unfold Item.InRange
  infer_instance

/-- Whether the items that become cells or tags have columns in range. -/
def Token.Fits (t : Token) : Prop :=
  t.type = .tableRow ∨ t.type = .tagLine → ∀ i ∈ t.items, i.InRange

instance (t : Token) : Decidable t.Fits := by
  unfold Token.Fits
  infer_instance

/-- The place of an item on a line. -/
def Item.place (line : UInt32) (i : Item) : Location := ⟨line, UInt32.ofNat i.column.toNat⟩

/-- What is wrong with a column that is out of range. -/
def Item.cause (i : Item) : Cause := if i.column < 0 then .belowZero else .aboveMaximum

/-- The rejection of an item whose column is out of range. -/
def Item.rejection (i : Item) : Rejection := ⟨"Location", [⟨[.key "column"], i.cause⟩]⟩

/-- The rejection of an item, unless its column is in range. -/
def Item.rejection? (i : Item) : Option Rejection := if i.InRange then none else some i.rejection

theorem Item.rejection?_eq_none_iff {i : Item} : i.rejection? = none ↔ i.InRange := by
  unfold rejection?
  by_cases h : i.InRange <;> simp [h]

theorem Item.rejection?_eq_some {i : Item} {r : Rejection} (h : i.rejection? = some r) :
    ¬ i.InRange ∧ i.rejection = r := by
  unfold rejection? at h
  split at h
  next => cases h
  next hrange => exact ⟨hrange, Option.some.inj h⟩

/-- The rejection of the first item of tokens whose column is out of range. -/
def firstRejection? (tokens : List Token) : Option Rejection :=
  tokens.findSome? fun t => t.items.findSome? Item.rejection?

theorem firstRejection?_eq_none_iff {tokens : List Token} :
    firstRejection? tokens = none ↔ ∀ t ∈ tokens, ∀ i ∈ t.items, i.InRange := by
  simp only [firstRejection?, List.findSome?_eq_none_iff, Item.rejection?_eq_none_iff]

/-! ## §2. One fault for a whole list. -/

/-- The value, unless there is a fault. -/
def unlessFault {ε α : Type} (a : α) : Option ε → Except ε α
  | some e => .error e
  | none => .ok a

theorem map_unlessFault {ε α β : Type} (f : α → β) (a : α) (fault? : Option ε) :
    (unlessFault a fault?).map f = unlessFault (f a) fault? := by
  cases fault? <;> rfl

/-- **A step taken for all elements of a list** fails like the first one for which it does. -/
theorem mapM_outcome {ε α β : Type} {f : α → Except ε β} {fault? : α → Option ε} {g : α → β}
    (h : ∀ a, f a = unlessFault (g a) (fault? a)) :
    ∀ l : List α, l.mapM f = unlessFault (l.map g) (l.findSome? fault?)
  | [] => rfl
  | a :: l => by
      rw [List.mapM_cons, List.findSome?_cons, h a, mapM_outcome h l]
      cases fault? a with
      | some e => rfl
      | none => cases l.findSome? fault? <;> rfl

theorem Location.onLine_outcome (line : UInt32) (i : Item) :
    Location.onLine line i.column = unlessFault (i.place line) i.rejection? := by
  unfold Location.onLine Item.rejection?
  by_cases h : i.InRange
  · obtain ⟨hlow, hhigh⟩ := h
    have hposition : position i.column = .ok (UInt32.ofNat i.column.toNat) := by
      unfold position
      rw [if_neg (by omega), if_neg (by omega)]
    rw [hposition, if_pos ⟨hlow, hhigh⟩]
    rfl
  · have hposition : position i.column = .error i.cause := by
      unfold position Item.cause
      -- a column that is not below zero can only be above the maximum
      split
      · rfl
      · rw [if_pos (by unfold Item.InRange at h; omega)]
    rw [hposition, if_neg h]
    rfl

/-! ## §3. Rows and tags. -/

/-- The row for a token whose columns fit. -/
def Token.row (t : Token) : TableRow :=
  ⟨t.location, t.items.map fun i => ⟨i.place t.location.line, i.text⟩⟩

/-- The tags on a tag line whose columns fit. -/
def Token.tags (t : Token) : List Tag :=
  t.items.map fun i => ⟨i.place t.location.line, i.text⟩

@[simp] theorem Token.length_cells_row (t : Token) : t.row.cells.length = t.items.length := by
  simp [Token.row]

theorem TableRow.ofToken_outcome (t : Token) :
    TableRow.ofToken t = unlessFault t.row (t.items.findSome? Item.rejection?) := by
  have hcell : ∀ i, TableCell.ofItem t.location.line i
      = unlessFault ⟨i.place t.location.line, i.text⟩ i.rejection? := by
    intro i
    unfold TableCell.ofItem
    rw [Location.onLine_outcome, map_unlessFault]
  unfold TableRow.ofToken Token.cells
  rw [mapM_outcome hcell, map_unlessFault]
  rfl

/-- The items of all tag lines together have the fault of the first line with one. -/
theorem Node.findSome?_tagItems (tokens : List Token) :
    (tagItems tokens).findSome? (fun p => p.2.rejection?) = firstRejection? tokens := by
  induction tokens with
  | nil => rfl
  | cons t rest ih =>
      show (t.items.map _ ++ tagItems rest).findSome? _ = _
      rw [List.findSome?_append, List.findSome?_map, ih]
      unfold firstRejection?
      rw [List.findSome?_cons]
      show (t.items.findSome? Item.rejection?).or _ = _
      cases t.items.findSome? Item.rejection? <;> rfl

/-- The items of all tag lines together give the tags of one line after the other. -/
theorem Node.mapM_tagOfItem_outcome (tokens : List Token) :
    ((tagItems tokens).mapM fun (line, i) => tagOfItem line i)
      = unlessFault (tokens.flatMap Token.tags) (firstRejection? tokens) := by
  have htag : ∀ p : UInt32 × Item, tagOfItem p.1 p.2
      = unlessFault ⟨p.2.place p.1, p.2.text⟩ p.2.rejection? := by
    intro p
    unfold tagOfItem
    rw [Location.onLine_outcome, map_unlessFault]
  rw [mapM_outcome htag, findSome?_tagItems]
  simp only [tagItems, List.map_flatMap, List.map_map]
  rfl

/-- The tag lines of a node's first `Tags` child. -/
def Node.tagLines (n : Node) : List Token :=
  match n.node? .tags with
  | some tagsNode => tagsNode.tokens .tagLine
  | none => []

/-- **The tags of any node** are refused for the first column out of range. -/
theorem Node.tags_outcome (n : Node) :
    n.tags = unlessFault (n.tagLines.flatMap Token.tags) (firstRejection? n.tagLines) := by
  unfold tags tagLines
  cases n.node? .tags with
  | none => rfl
  | some tagsNode => exact mapM_tagOfItem_outcome (tagsNode.tokens .tagLine)

theorem Node.tags_eq {n : Node} (h : ∀ t ∈ n.tagLines, ∀ i ∈ t.items, i.InRange) :
    n.tags = .ok (n.tagLines.flatMap Token.tags) := by
  rw [tags_outcome, firstRejection?_eq_none_iff.2 h]
  rfl

/-! ## §4. Tables. -/

/-- The first token whose number of items differs from that of the first token. -/
def raggedToken? : List Token → Option Token
  | [] => none
  | first :: rest => rest.find? fun t => t.items.length ≠ first.items.length

theorem raggedRow?_map_row (tokens : List Token) :
    raggedRow? (tokens.map Token.row) = (raggedToken? tokens).map Token.row := by
  cases tokens with
  | nil => rfl
  | cons first rest =>
      have hlengths : (fun r : TableRow => decide (r.cells.length ≠ first.row.cells.length))
          ∘ Token.row = fun t => decide (t.items.length ≠ first.items.length) := by
        funext t
        simp
      show (rest.map Token.row).find? _ = _
      rw [List.find?_map, hlengths]
      rfl

/-- **The rows of any tokens**: a column out of range counts first, then the numbers of items. -/
theorem tableRows_outcome (tokens : List Token) :
    tableRows tokens =
      match firstRejection? tokens with
      | some r => .error (.rejected r)
      | none =>
        match raggedToken? tokens with
        | some t => .error (.ragged t.location (tokens.map Token.row))
        | none => .ok (tokens.map Token.row) := by
  have hrows : tokens.mapM TableRow.ofToken
      = unlessFault (tokens.map Token.row) (firstRejection? tokens) :=
    mapM_outcome TableRow.ofToken_outcome tokens
  unfold tableRows
  rw [hrows]
  cases firstRejection? tokens with
  | some r => rfl
  | none =>
      show rectangular (tokens.map Token.row) = _
      unfold rectangular
      rw [raggedRow?_map_row]
      cases raggedToken? tokens <;> rfl

/-- **A table whose columns fit** has one row per token, and is refused only because of the first
token with another number of items than the first one. -/
theorem tableRows_eq {tokens : List Token} (h : ∀ t ∈ tokens, ∀ i ∈ t.items, i.InRange) :
    tableRows tokens =
      match raggedToken? tokens with
      | some t => .error (.ragged t.location (tokens.map Token.row))
      | none => .ok (tokens.map Token.row) := by
  rw [tableRows_outcome, firstRejection?_eq_none_iff.2 h]

end Gherkin
