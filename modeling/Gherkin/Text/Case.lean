/-
  Gherkin.Text.Case
  ─────────────────
  **THE SPELLINGS OF A COMPOUND NAME.**

  A name such as `DocString` is a run of capitalised words.  `words` cuts it
  where a capital letter follows a small one (so `EOF` is a single word), and
  `constantCase` and `memberCase` write the words in capitals or in small
  letters with an underscore between two: `DOC_STRING`, `doc_string`.
-/

namespace Gherkin.Text

/-- The characters with an underscore put in wherever a capital letter follows a small one. -/
def separateWords : List Char → List Char
  | a :: b :: rest =>
    if a.isLower && b.isUpper then a :: '_' :: separateWords (b :: rest)
    else a :: separateWords (b :: rest)
  | cs => cs

/-- The name in capitals, an underscore between two words: `DOC_STRING`. -/
def constantCase (name : String) : String :=
  String.ofList ((separateWords name.toList).map Char.toUpper)

/-- The name in small letters, an underscore between two words: `doc_string`. -/
def memberCase (name : String) : String :=
  String.ofList ((separateWords name.toList).map Char.toLower)

end Gherkin.Text
