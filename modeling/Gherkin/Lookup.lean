/-
  Gherkin.Lookup
  ──────────────
  **NAMES GIVEN AS DATA.**

  A name stands for a token type, a rule type or an error code exactly as it
  is spelled.  Anything else, other data included, is an unknown name, and the
  messages quote what was found.
-/
import Gherkin.Diagnostic

namespace Gherkin

/-- Data that is not the name of a value of an enumeration. -/
structure UnknownName where
  found : Json
  enumeration : String

/-- The words for an unknown name. -/
def UnknownName.message (u : UnknownName) : String :=
  u.found.shown ++ " is not a valid " ++ u.enumeration

/-- The token type that data names. -/
def TokenType.ofJson (j : Json) : Except UnknownName TokenType :=
  match j with
  | .text s =>
    match TokenType.ofName? s with
    | some t => .ok t
    | none => .error ⟨j, "TokenType"⟩
  | _ => .error ⟨j, "TokenType"⟩

/-- The rule type that data names. -/
def RuleType.ofJson (j : Json) : Except UnknownName RuleType :=
  match j with
  | .text s =>
    match RuleType.ofName? s with
    | some r => .ok r
    | none => .error ⟨j, "RuleType"⟩
  | _ => .error ⟨j, "RuleType"⟩

/-- A key under which nothing is to be found. -/
structure UnknownKey where
  found : Json

/-- The words for an unknown key: the key itself, quoted. -/
def UnknownKey.message (u : UnknownKey) : String := u.found.shown

/-- The error code that data names. -/
def ErrorCode.ofJson (j : Json) : Except UnknownKey ErrorCode :=
  match j with
  | .text s =>
    match ErrorCode.ofName? s with
    | some c => .ok c
    | none => .error ⟨j⟩
  | _ => .error ⟨j⟩

/-- The key that a missing detail leaves unknown. -/
def MissingDetail.toUnknownKey (m : MissingDetail) : UnknownKey := ⟨.text m.name⟩

end Gherkin
