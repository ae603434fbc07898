/-
  Gherkin.Value
  ─────────────
  **WHAT A NODE CAN HOLD.**

  A child of a node is a token or whatever a nested rule has become when it
  closed: an element, a list of rows, a text, nothing, or the nested node
  itself.  Children are grouped by category (`Grouped`), categories in order
  of first arrival and values in order of arrival.

  The small laws of `Grouped.add` say what it does to the two views of a
  grouping: `items_add` for the values of a category, `keys_add` for the list
  of categories.
-/
import Gherkin.Document.Element

namespace Gherkin

/-! ## §1. Values grouped by a key. -/

/-- Lists of values under keys. -/
abbrev Grouped (κ α : Type) : Type := List (κ × List α)

namespace Grouped

variable {κ α : Type} [DecidableEq κ]

/-- The grouping with one more value at the end of its key's list; a new key comes last. -/
def add (key : κ) (value : α) : Grouped κ α → Grouped κ α
  | [] => [(key, [value])]
  | (k, values) :: rest =>
    if k = key then (k, values ++ [value]) :: rest else (k, values) :: add key value rest

/-- The values under a key, in order of arrival. -/
def items (key : κ) : Grouped κ α → List α
  | [] => []
  | (k, values) :: rest => if k = key then values else items key rest

/-- The keys, in order of first arrival. -/
def keys (groups : Grouped κ α) : List κ := groups.map Prod.fst

theorem items_add (groups : Grouped κ α) (key : κ) (value : α) (k : κ) :
    items k (add key value groups) =
      items k groups ++ (if key = k then [value] else []) := by
  induction groups with
  | nil => by_cases h : key = k <;> simp [add, items, h]
  | cons g rest ih =>
    obtain ⟨k', values⟩ := g
    by_cases hk : k' = key
    · subst hk
      by_cases h : k' = k <;> simp [add, items, h]
    · by_cases h : k' = k
      · subst h
        simp [add, items, hk, Ne.symm hk]
      · simp [add, items, hk, h, ih]

theorem keys_add (groups : Grouped κ α) (key : κ) (value : α) :
    keys (add key value groups) =
      if key ∈ keys groups then keys groups else keys groups ++ [key] := by
  induction groups with
  | nil => simp [add, keys]
  | cons g rest ih =>
    obtain ⟨k', values⟩ := g
    by_cases hk : k' = key
    · simp [add, keys, hk]
    · have hne : key ≠ k' := fun h => hk h.symm
      have ih' := ih
      simp only [keys] at ih'
      simp only [add, keys, if_neg hk, List.map_cons, List.mem_cons, hne, false_or, ih']
      by_cases hm : key ∈ rest.map Prod.fst <;> simp [hm]

end Grouped

/-! ## §2. Values. -/

/-- A child of a node. -/
inductive Value where
  | null
  | bool (value : Bool)
  | int (value : Int)
  | decimal (value : Decimal)
  | text (value : String)
  | list (items : List Value)
  | token (value : Token)
  | element (value : Element)
  | node (type : RuleType) (children : List (RuleType × List Value))

namespace Value

/-- The token that a value is. -/
def token? : Value → Option Token
  | .token t => some t
  | _ => none

theorem token?_eq_some_iff {v : Value} {t : Token} : v.token? = some t ↔ v = .token t := by
  cases v <;> simp [token?]

/-- The text that a value is, or the empty text. -/
def textOrEmpty : Value → String
  | .text s => s
  | _ => ""

/-- The step that a value is. -/
def step? : Value → Option Step
  | .element (.step s) => some s
  | _ => none

/-- The data table that a value is. -/
def dataTable? : Value → Option DataTable
  | .element (.dataTable t) => some t
  | _ => none

/-- The doc string that a value is. -/
def docString? : Value → Option DocString
  | .element (.docString d) => some d
  | _ => none

/-- The examples section that a value is. -/
def examples? : Value → Option Examples
  | .element (.examples e) => some e
  | _ => none

/-- The scenario that a value is. -/
def scenario? : Value → Option Scenario
  | .element (.scenario s) => some s
  | _ => none

/-- The background that a value is. -/
def background? : Value → Option Background
  | .element (.background b) => some b
  | _ => none

/-- The rule that a value is. -/
def rule? : Value → Option Rule
  | .element (.rule r) => some r
  | _ => none

/-- The feature that a value is. -/
def feature? : Value → Option Feature
  | .element (.feature f) => some f
  | _ => none

/-- The document that a value is. -/
def document? : Value → Option Document
  | .element (.document d) => some d
  | _ => none

/-- The value for an element that may be missing. -/
def ofElement? {α : Type} (wrap : α → Element) : Option α → Value
  | some a => .element (wrap a)
  | none => .null

/-- The value for a list of rows. -/
def ofRows (rows : List TableRow) : Value := .list (rows.map fun r => .element (.tableRow r))

/-- The number that a value is; truth values count as zero and one. -/
def number? : Value → Option Decimal
  | .bool b => some (.ofInt (if b then 1 else 0))
  | .int n => some (.ofInt n)
  | .decimal d => some d
  | _ => none

/-- Whether two values are numbers and equal. -/
def sameNumber (v w : Value) : Bool :=
  match v.number?, w.number? with
  | some a, some b => a.sameValue b
  | _, _ => false

mutual

/-- Whether two values are equal: numbers by value, everything else by structure. -/
def same (v w : Value) : Bool :=
  match v, w with
  | .null, .null => true
  | .text a, .text b => a == b
  | .list a, .list b => sameItems a b
  | .token a, .token b => a == b
  | .element a, .element b => a == b
  | .node r a, .node s b => r == s && sameGroups a b
  | v, w => v.sameNumber w
termination_by structural v

/-- Whether two lists of values are equal item by item. -/
def sameItems (vs ws : List Value) : Bool :=
  match vs, ws with
  | [], [] => true
  | v :: vs, w :: ws => v.same w && sameItems vs ws
  | _, _ => false
termination_by structural vs

/-- Whether two groupings have the same categories with the same values. -/
def sameGroups (gs hs : List (RuleType × List Value)) : Bool :=
  match gs, hs with
  | [], [] => true
  | (r, vs) :: gs, (s, ws) :: hs => r == s && sameItems vs ws && sameGroups gs hs
  | _, _ => false
termination_by structural gs

end

end Value

end Gherkin
