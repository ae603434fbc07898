/-
  Gherkin.Schema.Read
  ───────────────────
  **MAKING A VALUE FROM DATA.**

  `Schema.read` either makes the value or lists what is wrong: the issues of
  all fields in their fixed order, those of a list by index, nested ones in
  place.  A check of a refinement runs only when everything below it is fine.
  Keys that no field has are ignored.
-/
import Gherkin.Schema.Basic
import Gherkin.Json.Display
import Gherkin.Text.Integer

namespace Gherkin

/-- The integer that a number with a decimal point equals; it must be below 2⁶³ in magnitude.  From
2¹⁰²⁴ on there is no finite number of the precision that it is rounded to. -/
def Decimal.toInteger (d : Decimal) : Except Cause Int :=
  match d.whole? with
  | some n =>
    if n.natAbs < Nat.pow 2 63 then .ok n
    else if n.natAbs < Nat.pow 2 1024 then .error .oversized
    else .error .infinite
  | none => .error .fractional

/-- The integer that data stands for: truth values, whole numbers and texts of integers count. -/
def Json.toInteger : Json → Except Cause Int
  | .int n => .ok n
  | .bool b => .ok (if b then 1 else 0)
  | .decimal d => d.toInteger
  | .text s =>
    match Text.readInteger s with
    | .ok n => .ok n
    | .error .malformed => .error .notIntegerText
    | .error .tooLong => .error .oversized
  | _ => .error .notInteger

/-- The value that a choice has for data. -/
def Choice.read {α : Type} (form : ChoiceForm) (options : Choice α) : Json → Checked α
  | .text s =>
    match options.ofName? s with
    | some a => .ok a
    | none => .refuse (.notMember form options.names)
  | _ => .refuse (.notMember form options.names)

/-- An outcome with a single cause as a result. -/
def Checked.ofExcept {α : Type} : Except Cause α → Checked α
  | .ok a => .ok a
  | .error cause => .refuse cause

mutual

/-- The value that data stands for. -/
def Schema.read {α : Type} (s : Schema α) (j : Json) : Checked α :=
  match s with
  | .integer => .ofExcept j.toInteger
  | .position =>
    match j.toInteger with
    | .ok n => .ofExcept (Gherkin.position n)
    | .error cause => .refuse cause
  | .text =>
    match j with
    | .text t => .ok t
    | _ => .refuse .notText
  | .choice form options => options.read form j
  | .list form item =>
    match j with
    | .array items => Checked.collect (fun i => item.read i) 0 items
    | _ => .refuse (.notList form)
  | .record form name fields =>
    match j with
    | .object members => fields.read members
    | _ => .refuse (.notRecord form name)
  | .union variants =>
    match j with
    | .object members =>
      match members.lookup "kind" with
      | none => .refuse .untagged
      | some found =>
        match (match found with
          | .text tag => variants.read tag j
          | _ => none) with
        | some result => result
        | none => .refuse (.unknownTag found.display variants.tags)
    | _ => .refuse .notTagged
  | .refine base make _ _ =>
    match base.read j with
    | .ok b => .ofExcept (make b)
    | .error issues => .error issues
termination_by structural s

/-- The values of the fields, from the members of an object. -/
def Fields.read {α : Type} (fs : Fields α) (members : List (String × Json)) : Checked α :=
  match fs with
  | .nil => .ok ()
  | .required key value rest =>
    Checked.pair
      (match key.find? members with
        | some (k, j) => .under (.key k) (value.read j)
        | none => .error [⟨[.key key.camel], .missing⟩])
      (rest.read members)
  | .defaulted key value absent rest =>
    Checked.pair
      (match key.find? members with
        | some (k, j) => .under (.key k) (value.read j)
        | none => .ok absent)
      (rest.read members)
  | .optional key value rest =>
    Checked.pair
      (match key.find? members with
        | some (_, .null) => .ok none
        | some (k, j) => .under (.key k) (.map some (value.read j))
        | none => .ok none)
      (rest.read members)
termination_by structural fs

/-- The value of the alternative that has a tag. -/
def Variants.read {α : Type} (vs : Variants α) (tag : String) (j : Json) : Option (Checked α) :=
  match vs with
  | .last t value => if t = tag then some (.under (.tag t) (value.read j)) else none
  | .more t value rest =>
    if t = tag then some (.under (.tag t) (.map .inl (value.read j)))
    else (rest.read tag j).map (.map .inr)
termination_by structural vs

end

end Gherkin
