/-
  Gherkin.Text.Lines
  ──────────────────
  **LINES AND THE TEXTS MADE OF THEM.**

    • `joinLines` — lines put together with one line feed between two,
    • `dropTrailingBlank` — a list of lines without the blank ones at its
      end; leading and inner blank lines stay,
    • `paragraph` — the two combined: the text of a description.
-/
import Gherkin.Text.Blank

namespace Gherkin.Text

/-- The lines with a line feed between every two of them. -/
def joinLines (lines : List String) : String := "\n".intercalate lines

/-- The lines up to and including the last one that is not blank. -/
def dropTrailingBlank (lines : List String) : List String :=
  (lines.reverse.dropWhile blank).reverse

/-- The text of a description: its lines, without the blank ones at the end. -/
def paragraph (lines : List String) : String := joinLines (dropTrailingBlank lines)

end Gherkin.Text
