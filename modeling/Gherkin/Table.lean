/-
  Gherkin.Table
  ─────────────
  **TABLES FROM TOKENS.**

  One row per token, one cell per item, each cell on the row's line at the
  column of its item.  A table has to be rectangular: `raggedRow?` is the
  first row whose number of cells differs from that of the first row, and the
  fault for it keeps all rows.  A column out of range counts before that.
-/
import Gherkin.Token
import Gherkin.Document

namespace Gherkin

/-- What can go wrong while something is made of a node; `kept` is what was made nevertheless. -/
inductive Fault (α : Type) where
  /-- A row with another number of cells than the first row of its table. -/
  | ragged (location : Location) (kept : α)
  /-- A value that does not fit where it has to go. -/
  | rejected (rejection : Rejection)

/-- The fault with what was kept put differently. -/
def Fault.map {α β : Type} (f : α → β) : Fault α → Fault β
  | .ragged location kept => .ragged location (f kept)
  | .rejected rejection => .rejected rejection

/-- The cell for an item on a line. -/
def TableCell.ofItem (line : UInt32) (i : Item) : Except Rejection TableCell :=
  (Location.onLine line i.column).map fun l => ⟨l, i.text⟩

/-- The cells for the items of a token. -/
def Token.cells (t : Token) : Except Rejection (List TableCell) :=
  t.items.mapM (TableCell.ofItem t.location.line)

/-- The row for a token. -/
def TableRow.ofToken (t : Token) : Except Rejection TableRow :=
  t.cells.map fun cells => ⟨t.location, cells⟩

/-- The first row whose number of cells differs from that of the first row of the table. -/
def raggedRow? : List TableRow → Option TableRow
  | [] => none
  | first :: rest => rest.find? fun r => r.cells.length ≠ first.cells.length

/-- The rows, provided that they have the same number of cells. -/
def rectangular (rows : List TableRow) : Except (Fault (List TableRow)) (List TableRow) :=
  match raggedRow? rows with
  | some r => .error (.ragged r.location rows)
  | none => .ok rows

/-- The rows for the tokens of a table. -/
def tableRows (tokens : List Token) : Except (Fault (List TableRow)) (List TableRow) :=
  match tokens.mapM TableRow.ofToken with
  | .ok rows => rectangular rows
  | .error rejection => .error (.rejected rejection)

/-- A table passes exactly when all its rows have the same number of cells. -/
theorem raggedRow?_eq_none_iff {rows : List TableRow} :
    raggedRow? rows = none ↔
      ∀ r ∈ rows, ∀ s ∈ rows, r.cells.length = s.cells.length := by
  cases rows with
  | nil => simp [raggedRow?]
  | cons first rest =>
    simp only [raggedRow?, List.find?_eq_none, decide_eq_true_eq, Decidable.not_not]
    constructor
    · intro h
      have hfirst : ∀ r ∈ first :: rest, r.cells.length = first.cells.length := by
        intro r hr
        rcases List.mem_cons.1 hr with rfl | hr
        · rfl
        · exact h r hr
      intro r hr s hs
      rw [hfirst r hr, hfirst s hs]
    · intro h r hr
      exact h r (List.mem_cons_of_mem _ hr) first List.mem_cons_self

end Gherkin
