/-
  Gherkin.Schema.Basic
  ────────────────────
  **THE SHAPE OF THE DATA FOR A TYPE.**

  `Schema α` describes the plain data that stands for values of `α`.  Reading
  and writing are both defined by recursion on it, so one description serves
  for both and a law about all classes of documents is one induction.

    • `Choice` — a closed list of names; its law `find_name` says that a
      name leads back to its value,
    • `Schema` — integers, positions, texts, choices, lists, records,
      alternatives told apart by a tag, and refinements,
    • `Fields` — the fields of a record in their fixed order: required,
      with a default, or optional (absent and null both mean none),
    • `Variants` — the alternatives, each with its tag.

  A `refine`d schema has a check on the way in and a way out that always
  passes the check.
-/
import Gherkin.Location

namespace Gherkin

/-- The key of a field in its two spellings, `doc_string` and `docString`. -/
structure FieldKey where
  plain : String
  camel : String
  deriving DecidableEq

namespace FieldKey

/-- A key with a single spelling. -/
def same (s : String) : FieldKey := ⟨s, s⟩

/-- The member with the key; the camel-case spelling wins, the other is then not looked at. -/
def find? (k : FieldKey) (members : List (String × Json)) : Option (String × Json) :=
  match members.lookup k.camel with
  | some j => some (k.camel, j)
  | none => (members.lookup k.plain).map fun j => (k.plain, j)

end FieldKey

/-- A closed list of values with names. -/
structure Choice (α : Type) where
  all : List α
  name : α → String
  find_name : ∀ a, all.find? (fun b => name b = name a) = some a

namespace Choice

/-- The names in their fixed order. -/
def names {α : Type} (c : Choice α) : List String := c.all.map c.name

/-- The value with a name. -/
def ofName? {α : Type} (c : Choice α) (s : String) : Option α := c.all.find? fun a => c.name a = s

/-- A choice with nothing to choose: one name. -/
def only (name : String) : Choice Unit := ⟨[()], fun _ => name, fun _ => by simp⟩

theorem ofName?_name {α : Type} (c : Choice α) (a : α) : c.ofName? (c.name a) = some a :=
  c.find_name a

end Choice

mutual

/-- The shape of the data for values of a type. -/
inductive Schema : Type → Type 1
  | integer : Schema Int
  | position : Schema UInt32
  | text : Schema String
  | choice {α : Type} (form : ChoiceForm) (options : Choice α) : Schema α
  | list {α : Type} (form : ListForm) (item : Schema α) : Schema (List α)
  | record {α : Type} (form : RecordForm) (name : String) (fields : Fields α) : Schema α
  | union {α : Type} (variants : Variants α) : Schema α
  | refine {α β : Type} (base : Schema β) (make : β → Except Cause α) (parts : α → β)
      (make_parts : ∀ a, make (parts a) = .ok a) : Schema α

/-- The fields of a record. -/
inductive Fields : Type → Type 1
  | nil : Fields Unit
  | required {α β : Type} (key : FieldKey) (value : Schema α) (rest : Fields β) : Fields (α × β)
  | defaulted {α β : Type} (key : FieldKey) (value : Schema α) (absent : α) (rest : Fields β) :
      Fields (α × β)
  | optional {α β : Type} (key : FieldKey) (value : Schema α) (rest : Fields β) :
      Fields (Option α × β)

/-- The alternatives of a union. -/
inductive Variants : Type → Type 1
  | last {α : Type} (tag : String) (value : Schema α) : Variants α
  | more {α β : Type} (tag : String) (value : Schema α) (rest : Variants β) : Variants (α ⊕ β)

end

namespace Variants

/-- The tags in their fixed order. -/
def tags {α : Type} : Variants α → List String
  | .last tag _ => [tag]
  | .more tag _ rest => tag :: rest.tags

end Variants

namespace Schema

/-- A schema for a type whose values are the values of another in a different dress. -/
def as {α β : Type} (base : Schema β) (make : β → α) (parts : α → β)
    (make_parts : ∀ a, make (parts a) = a) : Schema α :=
  .refine base (fun b => .ok (make b)) parts fun a => by rw [make_parts]

end Schema

end Gherkin
