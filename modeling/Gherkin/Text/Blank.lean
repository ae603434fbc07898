/-
  Gherkin.Text.Blank
  ──────────────────
  **WHITE SPACE, IN THE TWO SENSES THE LIBRARY NEEDS.**

    • `isWhiteSpace` — the Unicode property `White_Space`; it is what may
      surround a number that is written as a text,
    • `isBlank` — the same characters and the four information separators
      U+001C to U+001F; a line made of these alone counts as blank.

  The only law between the two is inclusion, `isBlank_of_isWhiteSpace`.
-/

namespace Gherkin.Text

/-- The characters with the Unicode property `White_Space`. -/
def isWhiteSpace (c : Char) : Bool :=
  let n := c.toNat
  (0x09 ≤ n && n ≤ 0x0D) || n == 0x20 || n == 0x85 || n == 0xA0 || n == 0x1680 ||
    (0x2000 ≤ n && n ≤ 0x200A) || n == 0x2028 || n == 0x2029 || n == 0x202F ||
    n == 0x205F || n == 0x3000

/-- The characters that leave a line blank: white space and the information separators. -/
def isBlank (c : Char) : Bool :=
  isWhiteSpace c || (0x1C ≤ c.toNat && c.toNat ≤ 0x1F)

/-- A text is blank when it holds nothing but blank characters. -/
def blank (s : String) : Bool := s.toList.all isBlank

theorem isBlank_of_isWhiteSpace {c : Char} (h : isWhiteSpace c = true) : isBlank c = true := by
  simp [isBlank, h]

/-- The list without the elements at its two ends that satisfy `p`. -/
def trimBoth (p : Char → Bool) (cs : List Char) : List Char :=
  ((cs.dropWhile p).reverse.dropWhile p).reverse

end Gherkin.Text
