/-
  Gherkin.Proofs.History
  ──────────────────────
  **A NODE TELLS ITS HISTORY.**

  A node keeps its children in groups, but whatever it answers is an answer
  about the plain list of what was filed, the oldest first: the history.

    • `Grouped.FirstArrivals` — the distinct members of a list, in the order
      in which each came first,
    • `Node.Records` — the values and the categories that a node holds are
      those of a history,
    • `Node.Records.add`, `Node.Records.addAll` — one more value is one more
      entry, and so for a whole run of them,
    • `node_tells_its_history` — every read of a node that was filled from
      empty, said of its history alone.

  Where a category holds more than one value, to look for the first one and
  then at what it is differs from looking for the first one of a kind.  A node
  does the former: null in front is found, and a token behind another value is
  not.
-/
import Gherkin.Proofs.Grouping

namespace Gherkin

/-! ## §1. Categories in the order of their first arrival. -/

namespace Grouped

variable {κ : Type} [DecidableEq κ]

/-- The distinct members of a list, in the order in which each came first. -/
structure FirstArrivals (seen distinct : List κ) : Prop where
  mem_iff : ∀ k, k ∈ distinct ↔ k ∈ seen
  inOrder : distinct.Pairwise fun j k => seen.idxOf j < seen.idxOf k

namespace FirstArrivals

variable {seen distinct : List κ} {k : κ}

theorem nil : FirstArrivals ([] : List κ) [] := ⟨fun _ => Iff.rfl, .nil⟩

theorem nodup (h : FirstArrivals seen distinct) : distinct.Nodup := by
  refine h.inOrder.imp ?_
  rintro j k hlt rfl
  exact Nat.lt_irrefl _ hlt

/-- There is one such list only. -/
theorem unique {others : List κ} (h : FirstArrivals seen distinct)
    (ho : FirstArrivals seen others) : distinct = others := by
  have hperm : distinct.Perm others := by
    rw [List.perm_ext_iff_of_nodup h.nodup ho.nodup]
    intro k
    rw [h.mem_iff, ho.mem_iff]
  refine hperm.eq_of_pairwise ?_ h.inOrder ho.inOrder
  intro j k _ _ hjk hkj
  exact absurd hkj (Nat.lt_asymm hjk)

/-- Whatever arrives later, those that have come stay in their order. -/
theorem inOrder_concat (h : FirstArrivals seen distinct) (k : κ) :
    distinct.Pairwise fun i j => (seen ++ [k]).idxOf i < (seen ++ [k]).idxOf j := by
  refine h.inOrder.imp_of_mem ?_
  intro i j hi hj hlt
  rw [List.idxOf_append_of_mem ((h.mem_iff i).1 hi), List.idxOf_append_of_mem ((h.mem_iff j).1 hj)]
  exact hlt

/-- One that has come before changes nothing. -/
theorem again (h : FirstArrivals seen distinct) (hk : k ∈ seen) :
    FirstArrivals (seen ++ [k]) distinct := by
  refine ⟨fun j => ?_, h.inOrder_concat k⟩
  rw [h.mem_iff, List.mem_append, List.mem_singleton]
  constructor
  · exact .inl
  · rintro (hj | rfl)
    · exact hj
    · exact hk

/-- A new one comes behind all others. -/
theorem new (h : FirstArrivals seen distinct) (hk : k ∉ seen) :
    FirstArrivals (seen ++ [k]) (distinct ++ [k]) := by
  refine ⟨fun j => ?_, ?_⟩
  · rw [List.mem_append, List.mem_append, h.mem_iff]
  · rw [List.pairwise_append]
    refine ⟨h.inOrder_concat k, List.pairwise_singleton _ _, ?_⟩
    intro i hi j hj
    obtain rfl := List.mem_singleton.1 hj
    have hseen : i ∈ seen := (h.mem_iff i).1 hi
    calc (seen ++ [j]).idxOf i
        = seen.idxOf i := List.idxOf_append_of_mem hseen
      _ < seen.length := List.idxOf_lt_length_of_mem hseen
      _ ≤ (seen ++ [j]).idxOf j := by
        rw [List.idxOf_append_of_notMem hk]
        exact Nat.le_add_right _ _

end FirstArrivals

end Grouped

/-! ## §2. What a node records. -/

/-- Whether a value is a token. -/
def Value.isToken : Value → Bool
  | .token _ => true
  | _ => false

theorem Value.map_token_filterMap (vs : List Value) :
    (vs.filterMap token?).map .token = vs.filter isToken := by
  induction vs with
  | nil => rfl
  | cons v rest ih =>
      cases v with
      | token t => exact congrArg (.token t :: ·) ih
      | _ => exact ih

namespace Node

open Grouped

variable {n : Node} {history : List (RuleType × Value)}

/-- Whether a node holds what a history says: under each category the values that arrived there, and
the categories in the order of their first arrival. -/
structure Records (n : Node) (history : List (RuleType × Value)) : Prop where
  items : ∀ c, n.items c = arrived c history
  categories : FirstArrivals (history.map Prod.fst) n.children.keys

namespace Records

theorem empty (type : RuleType) : (Node.empty type).Records [] := ⟨fun _ => rfl, .nil⟩

/-- **One more value is one more entry of the history.** -/
theorem add (h : n.Records history) (c : RuleType) (v : Value) :
    (n.add c v).Records (history ++ [(c, v)]) where
  items k := by rw [items_add, h.items, arrived_append, arrived_singleton]
  categories := by
    show FirstArrivals _ (Grouped.keys (Grouped.add c v n.children))
    rw [List.map_append, keys_add]
    by_cases hc : c ∈ n.children.keys
    · rw [if_pos hc]
      exact h.categories.again ((h.categories.mem_iff c).1 hc)
    · rw [if_neg hc]
      exact h.categories.new fun hseen => hc ((h.categories.mem_iff c).2 hseen)

/-- A run of values is a run of entries. -/
theorem addAll (h : n.Records history) (later : List (RuleType × Value)) :
    (n.addAll later).Records (history ++ later) := by
  induction later generalizing n history with
  | nil =>
      rw [List.append_nil]
      exact h
  | cons a rest ih =>
      rw [List.append_cons]
      exact ih (h.add a.1 a.2)

/-! ## §3. What such a node answers. -/

theorem first? (h : n.Records history) (c : RuleType) :
    n.first? c = (arrived c history).head? := by
  unfold Node.first?
  rw [h.items]

theorem single (h : n.Records history) (c : RuleType) (d : Value) :
    n.single c d = (arrived c history).head?.getD d := by
  unfold Node.single
  rw [h.first?]

/-- **The fallback stands in only where there is no value.** -/
theorem single_eq_fallback_iff (h : n.Records history) (c : RuleType) :
    (∀ d, n.single c d = d) ↔ arrived c history = [] := by
  constructor
  · intro hfallback
    cases hvalues : arrived c history with
    | nil => rfl
    | cons v rest =>
        -- the answer is the first value, which cannot be every fallback at once
        have hanswer : ∀ d, v = d := by
          intro d
          rw [← hfallback d, h.single, hvalues]
          rfl
        cases (hanswer .null).symm.trans (hanswer (.text ""))
  · intro hnone d
    rw [h.single, hnone]
    rfl

theorem tokens (h : n.Records history) (t : TokenType) :
    (n.tokens t).map Value.token = (arrived (.leaf t) history).filter Value.isToken := by
  unfold Node.tokens
  rw [h.items, Value.map_token_filterMap]

/-- **A token is found only in front of all other values of its category.** -/
theorem token?_eq_some_iff (h : n.Records history) {t : TokenType} {x : Token} :
    n.token? t = some x ↔ (arrived (.leaf t) history).head? = some (.token x) := by
  rw [Node.token?_eq_some_iff, h.first?]

/-- The categories that a description lists are determined by the history. -/
theorem describe (h : n.Records history) :
    ∃ distinct, (∀ l, FirstArrivals (history.map Prod.fst) l ↔ l = distinct)
      ∧ n.describe = "AstNode(" ++ n.type.name ++ ", ["
        ++ ", ".intercalate (distinct.map describeCategory) ++ "])" := by
  refine ⟨n.children.keys, fun l => ?_, rfl⟩
  constructor
  · intro hl
    exact hl.unique h.categories
  · rintro rfl
    exact h.categories

end Records

/-! ## §4. A node filled from empty. -/

/-- **A node tells its history.**  Of a node that was filled from empty, with values of any kind,
the items of a category are the values that arrived there, in order; a single one is the first of
them, whatever it is, and the fallback only where there is none; the tokens of a type are those
among the values of its leaf category; one token is the first of these values, if that is a token;
and the description lists the distinct categories in the order of their first arrival. -/
theorem node_tells_its_history (type : RuleType) (history : List (RuleType × Value)) :
    (∀ c, ((empty type).addAll history).items c = arrived c history)
      ∧ (∀ c d, ((empty type).addAll history).single c d = (arrived c history).head?.getD d)
      ∧ (∀ c, (∀ d, ((empty type).addAll history).single c d = d) ↔ arrived c history = [])
      ∧ (∀ t, (((empty type).addAll history).tokens t).map Value.token
        = (arrived (.leaf t) history).filter Value.isToken)
      ∧ (∀ t x, ((empty type).addAll history).token? t = some x
        ↔ (arrived (.leaf t) history).head? = some (.token x))
      ∧ ∃ distinct, (∀ l, FirstArrivals (history.map Prod.fst) l ↔ l = distinct)
        ∧ ((empty type).addAll history).describe = "AstNode(" ++ type.name ++ ", ["
          ++ ", ".intercalate (distinct.map describeCategory) ++ "])" := by
  have hrecords : ((empty type).addAll history).Records history :=
    (Records.empty type).addAll history
  have hdescribe := hrecords.describe
  rw [type_addAll] at hdescribe
  exact ⟨hrecords.items, hrecords.single, hrecords.single_eq_fallback_iff, hrecords.tokens,
    fun _ _ => hrecords.token?_eq_some_iff, hdescribe⟩

/-- A history in which what comes first under a category is null, or no token. -/
def crowdedHistory : List (RuleType × Value) :=
  [ (.leaf .other, .ofNode (empty .tags)),
    (.description, .null),
    (.leaf .other, .token { type := .other, location := ⟨2, 1⟩, text := "a" }),
    (.description, .text "b") ]

example : ((empty .tags).addAll crowdedHistory).single .description (.text "c") = .null := rfl

example : ((empty .tags).addAll crowdedHistory).token? .other = none
    ∧ (((empty .tags).addAll crowdedHistory).tokens .other).map Token.text = ["a"] := ⟨rfl, rfl⟩

example : ((empty .tags).addAll crowdedHistory).children.keys = [.leaf .other, .description] := rfl

end Node

end Gherkin
