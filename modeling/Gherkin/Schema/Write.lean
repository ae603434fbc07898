/-
  Gherkin.Schema.Write
  ────────────────────
  **WRITING A VALUE AS DATA.**

  `Schema.write` writes every field in its fixed order.  The two switches of
  `WriteStyle` choose the spelling of keys and whether fields without a value
  are left out; they apply at all depths.
-/
import Gherkin.Schema.Basic

namespace Gherkin

/-- How records are written. -/
structure WriteStyle where
  /-- Whether keys are written in camel case. -/
  camelCase : Bool
  /-- Whether optional fields without a value are left out. -/
  dropNull : Bool
  deriving DecidableEq

namespace WriteStyle

/-- Keys in camel case, all fields. -/
def full : WriteStyle := ⟨true, false⟩

/-- Keys with underscores, no fields without a value. -/
def short : WriteStyle := ⟨false, true⟩

end WriteStyle

/-- The spelling of a key. -/
def FieldKey.spelling (style : WriteStyle) (k : FieldKey) : String :=
  if style.camelCase then k.camel else k.plain

mutual

/-- The data for a value. -/
def Schema.write {α : Type} (style : WriteStyle) (s : Schema α) (a : α) : Json :=
  match s with
  | .integer => .int a
  | .position => .int (positionValue a)
  | .text => .text a
  | .choice _ options => .text (options.name a)
  | .list _ item => .array (a.map fun x => item.write style x)
  | .record _ _ fields => .object (fields.write style a)
  | .union variants => variants.write style a
  | .refine base _ parts _ => base.write style (parts a)
termination_by structural s

/-- The members for the values of the fields. -/
def Fields.write {α : Type} (style : WriteStyle) (fs : Fields α) (a : α) : List (String × Json) :=
  match fs with
  | .nil => []
  | .required key value rest =>
    (key.spelling style, value.write style a.1) :: rest.write style a.2
  | .defaulted key value _ rest =>
    (key.spelling style, value.write style a.1) :: rest.write style a.2
  | .optional key value rest =>
    match a.1 with
    | some x => (key.spelling style, value.write style x) :: rest.write style a.2
    | none =>
      if style.dropNull then rest.write style a.2
      else (key.spelling style, .null) :: rest.write style a.2
termination_by structural fs

/-- The data for a value of one of the alternatives. -/
def Variants.write {α : Type} (style : WriteStyle) (vs : Variants α) (a : α) : Json :=
  match vs with
  | .last _ value => value.write style a
  | .more _ value rest =>
    match a with
    | .inl x => value.write style x
    | .inr y => rest.write style y
termination_by structural vs

end

end Gherkin
