/-
  Gherkin.Proofs.Grouping
  ───────────────────────
  **GROUPING SAID IN ONE STEP.**

  `Grouped.add` files one value after the other.  `Grouped.ofList` says what
  the result is for a whole list of arrivals: the keys in order of first
  arrival, and under each key the values that arrived with it.

    • `ofList_concat` — one more arrival is one more `add`,
    • `items_ofList` — the values of a key are those that arrived with it,
    • `Node.addAll_empty` — a node filled step by step is the node of its
      arrivals.
-/
import Gherkin.Node
import Mathlib.Data.List.Induction
import Mathlib.Data.List.Nodup

namespace Gherkin

/-! ## §1. Arrivals grouped by key. -/

namespace Grouped

variable {κ α : Type} [DecidableEq κ]

/-- The values that arrived with a key. -/
def arrived (key : κ) (arrivals : List (κ × α)) : List α :=
  (arrivals.filter fun a => a.1 = key).map Prod.snd

/-- The grouping of a list of arrivals. -/
def ofList (arrivals : List (κ × α)) : Grouped κ α :=
  (arrivals.map Prod.fst).eraseDups.map fun key => (key, arrived key arrivals)

@[simp] theorem arrived_nil (key : κ) : arrived key ([] : List (κ × α)) = [] := rfl

@[simp] theorem arrived_append (key : κ) (as bs : List (κ × α)) :
    arrived key (as ++ bs) = arrived key as ++ arrived key bs := by
  simp [arrived]

theorem arrived_singleton (key k : κ) (value : α) :
    arrived key [(k, value)] = if k = key then [value] else [] := by
  by_cases h : k = key <;> simp [arrived, h]

@[simp] theorem arrived_cons (key k : κ) (value : α) (rest : List (κ × α)) :
    arrived key ((k, value) :: rest) = (if k = key then [value] else []) ++ arrived key rest := by
  rw [← arrived_singleton, ← arrived_append]
  rfl

/-- Arrivals that all come with one key. -/
theorem arrived_map {β : Type} (key k : κ) (f : β → α) (l : List β) :
    arrived key (l.map fun b => (k, f b)) = if k = key then l.map f else [] := by
  induction l with
  | nil => simp
  | cons b rest ih =>
      rw [List.map_cons, arrived_cons, ih]
      by_cases h : k = key <;> simp [h]

theorem arrived_eq_nil {key : κ} {arrivals : List (κ × α)}
    (h : key ∉ arrivals.map Prod.fst) : arrived key arrivals = [] := by
  unfold arrived
  rw [List.map_eq_nil_iff, List.filter_eq_nil_iff]
  intro a ha hkey
  exact h (List.mem_map.2 ⟨a, ha, of_decide_eq_true hkey⟩)

theorem items_map (key : κ) (f : κ → List α) (keys : List κ) :
    items key (keys.map fun k => (k, f k)) = if key ∈ keys then f key else [] := by
  induction keys with
  | nil => rfl
  | cons k rest ih =>
      simp only [List.map_cons, items]
      by_cases h : k = key
      · subst h
        simp
      · rw [if_neg h, ih]
        simp [List.mem_cons, Ne.symm h]

/-- **The values of a key in a grouping** are those that arrived with it. -/
theorem items_ofList (key : κ) (arrivals : List (κ × α)) :
    items key (ofList arrivals) = arrived key arrivals := by
  unfold ofList
  rw [items_map]
  by_cases h : key ∈ arrivals.map Prod.fst
  · rw [if_pos (List.mem_eraseDups.2 h)]
  · rw [if_neg (fun hk => h (List.mem_eraseDups.1 hk)), arrived_eq_nil h]

theorem nodup_eraseDups : ∀ keys : List κ, keys.eraseDups.Nodup
  | [] => List.nodup_nil
  | k :: rest => by
      rw [List.eraseDups_cons, List.nodup_cons]
      exact ⟨by simp, nodup_eraseDups _⟩
termination_by keys => keys.length
decreasing_by exact Nat.lt_succ_of_le (List.length_filter_le _ _)

theorem add_map (key : κ) (value : α) (f : κ → List α) {keys : List κ} (hkeys : keys.Nodup) :
    add key value (keys.map fun k => (k, f k)) =
      keys.map (fun k => (k, f k ++ if key = k then [value] else []))
        ++ if key ∈ keys then [] else [(key, [value])] := by
  induction keys with
  | nil => rfl
  | cons k rest ih =>
      obtain ⟨hk, hrest⟩ := List.nodup_cons.1 hkeys
      simp only [List.map_cons, add]
      by_cases h : k = key
      · -- the key is found here, and nowhere else
        subst h
        have hothers : ∀ j ∈ rest,
            (j, f j) = (j, f j ++ if k = j then [value] else []) := by
          intro j hj
          have hne : k ≠ j := fun hkj => hk (hkj ▸ hj)
          rw [if_neg hne, List.append_nil]
        simp [List.map_congr_left hothers]
      · rw [if_neg h, ih hrest]
        simp [List.mem_cons, Ne.symm h]

/-- **One more arrival is one more `add`.** -/
theorem ofList_concat (arrivals : List (κ × α)) (key : κ) (value : α) :
    ofList (arrivals ++ [(key, value)]) = add key value (ofList arrivals) := by
  have hkeys : ((arrivals ++ [(key, value)]).map Prod.fst).eraseDups
      = (arrivals.map Prod.fst).eraseDups
          ++ if key ∈ arrivals.map Prod.fst then [] else [key] := by
    rw [List.map_append, List.eraseDups_append]
    by_cases h : key ∈ arrivals.map Prod.fst <;>
      simp [List.removeAll, h, List.eraseDups_cons]
  have hvalues : (fun k => (k, arrived k (arrivals ++ [(key, value)])))
      = fun k => (k, arrived k arrivals ++ if key = k then [value] else []) := by
    funext k
    rw [arrived_append, arrived_singleton]
  unfold ofList
  rw [hkeys, hvalues, add_map key value _ (nodup_eraseDups _), List.map_append]
  congr 1
  -- a new key opens a group of its own, after all others
  by_cases h : key ∈ arrivals.map Prod.fst
  · simp [h]
  · simp [h, arrived_eq_nil h]

end Grouped

/-! ## §2. Nodes filled with arrivals. -/

namespace Node

/-- The rule with the given arrivals under it. -/
def ofArrivals (type : RuleType) (arrivals : List (RuleType × Value)) : Node :=
  ⟨type, .ofList arrivals⟩

/-- The node with more arrivals, filed one after the other. -/
def addAll (arrivals : List (RuleType × Value)) (n : Node) : Node :=
  arrivals.foldl (fun n a => n.add a.1 a.2) n

@[simp] theorem type_ofArrivals (type : RuleType) (arrivals : List (RuleType × Value)) :
    (ofArrivals type arrivals).type = type := rfl

@[simp] theorem addAll_nil (n : Node) : n.addAll [] = n := rfl

@[simp] theorem addAll_cons (a : RuleType × Value) (arrivals : List (RuleType × Value)) (n : Node) :
    n.addAll (a :: arrivals) = (n.add a.1 a.2).addAll arrivals := rfl

@[simp] theorem addAll_append (as bs : List (RuleType × Value)) (n : Node) :
    n.addAll (as ++ bs) = (n.addAll as).addAll bs :=
  List.foldl_append

@[simp] theorem type_addAll (arrivals : List (RuleType × Value)) (n : Node) :
    (n.addAll arrivals).type = n.type := by
  induction arrivals generalizing n with
  | nil => rfl
  | cons a rest ih => rw [addAll_cons, ih, type_add]

theorem items_addAll (arrivals : List (RuleType × Value)) (n : Node) (c : RuleType) :
    (n.addAll arrivals).items c = n.items c ++ Grouped.arrived c arrivals := by
  induction arrivals generalizing n with
  | nil => simp
  | cons a rest ih =>
      rw [addAll_cons, ih, items_add, List.append_assoc, ← Grouped.arrived_singleton,
        ← Grouped.arrived_append]
      rfl

@[simp] theorem items_ofArrivals (type : RuleType) (arrivals : List (RuleType × Value))
    (c : RuleType) :
    (ofArrivals type arrivals).items c = Grouped.arrived c arrivals :=
  Grouped.items_ofList c arrivals

/-- **A node filled step by step** is the node of its arrivals. -/
theorem addAll_empty (type : RuleType) (arrivals : List (RuleType × Value)) :
    (empty type).addAll arrivals = ofArrivals type arrivals := by
  induction arrivals using List.reverseRecOn with
  | nil => rfl
  | append_singleton before a ih =>
      rw [addAll_append, ih]
      show (ofArrivals type before).add a.1 a.2 = _
      unfold ofArrivals
      rw [Grouped.ofList_concat]
      rfl

end Node

end Gherkin
