/-
  Gherkin.Proofs.Paths
  ────────────────────
  **PATHS INTO PLAIN DATA.**

  An issue names the place of what is wrong by a path.  Two questions about
  paths are answered here, apart from how issues are found:

    • `Json.follow?`       — where a path leads in given data; a tag is no step
      into the data, but it has to be the one that is there,
    • `Issue.PointsInto`   — an issue is about a part of the data, or about a
      field that an object in it lacks,
    • `Schema.keysAt`      — the fields, in their fixed order, of the record
      that a path leads to,
    • `Precedes`           — one path leads to an earlier part than another.

  Paths in this order part at a key or at an index.  So they stay different
  when keys and tags are shown alike, and none leads to a part of what another
  leads to (`Precedes.not_prefix`).
-/
import Gherkin.Proofs.RoundTrip

namespace Gherkin

/-! ## §1. Following a path. -/

namespace Json

/-- The part of data that one step leads to. -/
def step? (j : Json) : PathStep → Option Json
  | .key name => j.member? name
  | .index i =>
    match j with
    | .array items => items[i]?
    | _ => none
  | .tag name =>
    match j.member? "kind" with
    | some (.text t) => if t = name then some j else none
    | _ => none

/-- The part of data that a path leads to. -/
def follow? (j : Json) : List PathStep → Option Json
  | [] => some j
  | step :: rest => (j.step? step).bind fun part => part.follow? rest

theorem follow?_cons {j part : Json} {step : PathStep} (h : j.step? step = some part)
    (rest : List PathStep) : j.follow? (step :: rest) = part.follow? rest := by
  rw [follow?, h]
  rfl

theorem step?_tag {j : Json} {t : String} (h : j.member? "kind" = some (.text t)) :
    j.step? (.tag t) = some j := by
  unfold step?
  simp only [h, if_pos]

end Json

/-- What an issue is about: a part of the data, or a key that an object in the data has not. -/
inductive Issue.PointsInto (j : Json) : Issue → Prop
  | part {path : List PathStep} {cause : Cause} {part : Json} (hcause : cause ≠ .missing)
      (hpart : j.follow? path = some part) : PointsInto j ⟨path, cause⟩
  | absent {path : List PathStep} {key : String} {members : List (String × Json)}
      (hobject : j.follow? path = some (.object members)) (hkey : members.lookup key = none) :
      PointsInto j ⟨path ++ [.key key], .missing⟩

/-- An issue with a part of the data is one with the data. -/
theorem Issue.PointsInto.under {j part : Json} {step : PathStep} {i : Issue}
    (h : i.PointsInto part) (hstep : j.step? step = some part) : (i.under step).PointsInto j := by
  cases h with
  | part hcause hpart => exact .part hcause ((Json.follow?_cons hstep _).trans hpart)
  | @absent path key members hobject hkey =>
      show PointsInto j ⟨(step :: path) ++ [.key key], .missing⟩
      exact .absent ((Json.follow?_cons hstep _).trans hobject) hkey

/-! ## §2. The fields at a path. -/

instance (k : FieldKey) (s : String) : Decidable (k.Names s) := by
  unfold FieldKey.Names
  infer_instance

mutual

/-- The keys of the record at a path, in their fixed order; none if there is no record. -/
def Schema.keysAt {α : Type} (s : Schema α) (path : List PathStep) : List FieldKey :=
  match s with
  | .list _ item =>
    match path with
    | .index _ :: rest => item.keysAt rest
    | _ => []
  | .record _ _ fields =>
    match path with
    | [] => fields.keys
    | .key k :: rest => fields.keysBelow k rest
    | _ => []
  | .union variants =>
    match path with
    | .tag t :: rest => variants.keysBelow t rest
    | _ => []
  | .refine base _ _ _ => base.keysAt path
  | _ => []
termination_by structural s

/-- The keys at a path below the field that a key names. -/
def Fields.keysBelow {α : Type} (fs : Fields α) (k : String) (path : List PathStep) :
    List FieldKey :=
  match fs with
  | .nil => []
  | .required key value rest => if key.Names k then value.keysAt path else rest.keysBelow k path
  | .defaulted key value _ rest => if key.Names k then value.keysAt path else rest.keysBelow k path
  | .optional key value rest => if key.Names k then value.keysAt path else rest.keysBelow k path
termination_by structural fs

/-- The keys at a path in the alternative with a tag. -/
def Variants.keysBelow {α : Type} (vs : Variants α) (t : String) (path : List PathStep) :
    List FieldKey :=
  match vs with
  | .last tag value => if tag = t then value.keysAt path else []
  | .more tag value rest => if tag = t then value.keysAt path else rest.keysBelow t path
termination_by structural vs

end

mutual

/-- Whether the keys of all records of a schema have a property. -/
def Schema.everyRecord {α : Type} (P : List FieldKey → Bool) : Schema α → Bool
  | .list _ item => item.everyRecord P
  | .record _ _ fields => P fields.keys && fields.everyRecord P
  | .union variants => variants.everyRecord P
  | .refine base _ _ _ => base.everyRecord P
  | _ => true

/-- The same for the schemas of all fields. -/
def Fields.everyRecord {α : Type} (P : List FieldKey → Bool) : Fields α → Bool
  | .nil => true
  | .required _ value rest => value.everyRecord P && rest.everyRecord P
  | .defaulted _ value _ rest => value.everyRecord P && rest.everyRecord P
  | .optional _ value rest => value.everyRecord P && rest.everyRecord P

/-- The same for the schemas of all alternatives. -/
def Variants.everyRecord {α : Type} (P : List FieldKey → Bool) : Variants α → Bool
  | .last _ value => value.everyRecord P
  | .more _ value rest => value.everyRecord P && rest.everyRecord P

end

section EveryRecord

variable {P : List FieldKey → Bool} (hnil : P [])
include hnil

mutual

/-- **The keys at any path** have a property that the keys of all records have. -/
theorem Schema.keysAt_of_everyRecord :
    ∀ {α : Type} (s : Schema α), s.everyRecord P → ∀ path, P (s.keysAt path)
  | _, .integer, _, _ | _, .position, _, _ | _, .text, _, _ | _, .choice _ _, _, _ => hnil
  | _, .list _ item, h, .index _ :: rest => item.keysAt_of_everyRecord h rest
  | _, .list _ _, _, [] | _, .list _ _, _, .key _ :: _ | _, .list _ _, _, .tag _ :: _ => hnil
  | _, .record _ _ _, h, [] => (Bool.and_eq_true_iff.1 h).1
  | _, .record _ _ fields, h, .key k :: rest =>
      fields.keysBelow_of_everyRecord (Bool.and_eq_true_iff.1 h).2 k rest
  | _, .record _ _ _, _, .index _ :: _ | _, .record _ _ _, _, .tag _ :: _ => hnil
  | _, .union variants, h, .tag t :: rest => variants.keysBelow_of_everyRecord h t rest
  | _, .union _, _, [] | _, .union _, _, .key _ :: _ | _, .union _, _, .index _ :: _ => hnil
  | _, .refine base _ _ _, h, path => base.keysAt_of_everyRecord h path

theorem Fields.keysBelow_of_everyRecord :
    ∀ {α : Type} (fs : Fields α), fs.everyRecord P → ∀ k path, P (fs.keysBelow k path)
  | _, .nil, _, _, _ => hnil
  | _, .required key value rest, h, k, path | _, .defaulted key value _ rest, h, k, path
  | _, .optional key value rest, h, k, path => by
      obtain ⟨hvalue, hrest⟩ := Bool.and_eq_true_iff.1 h
      unfold Fields.keysBelow
      split
      · exact value.keysAt_of_everyRecord hvalue path
      · exact rest.keysBelow_of_everyRecord hrest k path

theorem Variants.keysBelow_of_everyRecord :
    ∀ {α : Type} (vs : Variants α), vs.everyRecord P → ∀ t path, P (vs.keysBelow t path)
  | _, .last tag value, h, t, path => by
      unfold Variants.keysBelow
      split
      · exact value.keysAt_of_everyRecord h path
      · exact hnil
  | _, .more tag value rest, h, t, path => by
      obtain ⟨hvalue, hrest⟩ := Bool.and_eq_true_iff.1 h
      unfold Variants.keysBelow
      split
      · exact value.keysAt_of_everyRecord hvalue path
      · exact rest.keysBelow_of_everyRecord hrest t path

end

end EveryRecord

/-! ## §3. The order of paths. -/

/-- Whether one path leads to an earlier part than another, for data with the given keys at each
path: where the two part, it takes an item with a smaller index, or an earlier field. -/
inductive Precedes : (List PathStep → List FieldKey) → List PathStep → List PathStep → Prop
  | index {keysAt : List PathStep → List FieldKey} {i j : Nat} (p q : List PathStep) :
      i < j → Precedes keysAt (.index i :: p) (.index j :: q)
  | field {keysAt : List PathStep → List FieldKey} {earlier later : FieldKey} {k l : String}
      (p q : List PathStep) : [earlier, later].Sublist (keysAt []) → earlier.Names k →
      later.Names l → k ≠ l → Precedes keysAt (.key k :: p) (.key l :: q)
  | step {keysAt : List PathStep → List FieldKey} (s : PathStep) {p q : List PathStep} :
      Precedes (fun path => keysAt (s :: path)) p q → Precedes keysAt (s :: p) (s :: q)

/-- A step as it is shown: a name or a number. -/
def PathStep.shown : PathStep → String ⊕ Nat
  | .key name => .inl name
  | .index i => .inr i
  | .tag name => .inl name

/-- A path as it is shown. -/
def Issue.shown (i : Issue) : List (String ⊕ Nat) := i.path.map PathStep.shown

/-- **Of two paths in order, none is a beginning of the other**, even as they are shown. -/
theorem Precedes.not_prefix {keysAt : List PathStep → List FieldKey} {p q : List PathStep}
    (h : Precedes keysAt p q) :
    ¬ p.map PathStep.shown <+: q.map PathStep.shown
      ∧ ¬ q.map PathStep.shown <+: p.map PathStep.shown := by
  induction h with
  | index p q hlt =>
      rw [List.map_cons, List.map_cons, List.cons_prefix_cons, List.cons_prefix_cons]
      exact ⟨fun h => Nat.ne_of_lt hlt (Sum.inr.inj h.1),
        fun h => Nat.ne_of_gt hlt (Sum.inr.inj h.1)⟩
  | field p q _ _ _ hne =>
      rw [List.map_cons, List.map_cons, List.cons_prefix_cons, List.cons_prefix_cons]
      exact ⟨fun h => hne (Sum.inl.inj h.1), fun h => hne (Sum.inl.inj h.1).symm⟩
  | step s _ ih =>
      rw [List.map_cons, List.map_cons, List.cons_prefix_cons, List.cons_prefix_cons]
      exact ⟨fun h => ih.1 h.2, fun h => ih.2 h.2⟩

end Gherkin
