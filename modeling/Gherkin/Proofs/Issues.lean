/-
  Gherkin.Proofs.Issues
  ─────────────────────
  **ISSUES POINT INTO THE DATA, ONCE EACH.**

  Issues are gathered by recursion on a schema, through records, lists and
  alternatives.  `Checked.Precise` says what holds of the issues at every
  level: there is at least one if reading fails, each is about a part of the
  data or about a key that is not there, and their paths come in order.

    • `Checked.Precise.under`, `Checked.Precise.pair` — one step further out,
      and two readings side by side,
    • `Checked.PreciseFor`   — the same for some fields of a record,
    • `Schema.read_precise`  — reading by any schema, by one induction,
    • `validate_pinpoints`   — validation by each class.

  A schema has to tell its fields apart and its checks must not call missing
  what is there; both hold for all classes.
-/
import Gherkin.Proofs.Paths

namespace Gherkin

/-! ## §1. Outcomes. -/

namespace Checked

/-- The issues of an outcome. -/
def issues {α : Type} : Checked α → List Issue
  | .ok _ => []
  | .error issues => issues

/-- Whether the issues of an outcome are about the data and come in the order of its parts; a failure
has at least one. -/
structure Precise {α : Type} (x : Checked α) (j : Json) (keysAt : List PathStep → List FieldKey) :
    Prop where
  nonempty : x ≠ .error []
  pointing : ∀ i ∈ x.issues, i.PointsInto j
  ordered : x.issues.Pairwise fun i k => Precedes keysAt i.path k.path

variable {α β : Type} {j : Json} {keysAt : List PathStep → List FieldKey}

theorem issues_under (step : PathStep) (x : Checked α) :
    (x.under step).issues = x.issues.map (Issue.under step) := by
  cases x <;> rfl

theorem issues_map (f : α → β) (x : Checked α) : (x.map f).issues = x.issues := by
  cases x <;> rfl

theorem issues_pair (x : Checked α) (y : Checked β) :
    (x.pair y).issues = x.issues ++ y.issues := by
  cases x with
  | ok a => cases y <;> rfl
  | error first =>
      cases y with
      | ok b => exact (List.append_nil first).symm
      | error second => rfl

namespace Precise

theorem ok (a : α) : Precise (.ok a) j keysAt := ⟨nofun, nofun, .nil⟩

/-- A single issue. -/
theorem one {i : Issue} (h : i.PointsInto j) : Precise (.error [i] : Checked α) j keysAt :=
  ⟨nofun, List.forall_mem_singleton.2 h, List.pairwise_singleton _ _⟩

theorem refuse {cause : Cause} (h : cause ≠ .missing) :
    Precise (refuse cause : Checked α) j keysAt :=
  one (.part h rfl)

theorem ofExcept {r : Except Cause α} (h : r ≠ .error .missing) :
    Precise (.ofExcept r) j keysAt := by
  cases r with
  | ok a => exact ok a
  | error cause => exact refuse fun heq => h (heq ▸ rfl)

theorem map {x : Checked α} (f : α → β) (h : x.Precise j keysAt) :
    (x.map f).Precise j keysAt := by
  refine ⟨?_, ?_, ?_⟩
  · intro hempty
    cases x with
    | ok a => cases hempty
    | error issues =>
        cases hempty
        exact h.nonempty rfl
  · rw [issues_map]
    exact h.pointing
  · rw [issues_map]
    exact h.ordered

/-- **One step further out.** -/
theorem under {x : Checked α} {part : Json} {step : PathStep} (hstep : j.step? step = some part)
    (h : x.Precise part fun path => keysAt (step :: path)) :
    (x.under step).Precise j keysAt := by
  refine ⟨?_, ?_, ?_⟩
  · intro hempty
    cases x with
    | ok a => cases hempty
    | error issues =>
        have hnil : issues.map (Issue.under step) = [] := Except.error.inj hempty
        rw [List.map_eq_nil_iff] at hnil
        exact h.nonempty (congrArg Except.error hnil)
  · rw [issues_under]
    intro i hi
    obtain ⟨k, hk, rfl⟩ := List.mem_map.1 hi
    exact (h.pointing k hk).under hstep
  · rw [issues_under, List.pairwise_map]
    exact h.ordered.imp fun hprecedes => .step step hprecedes

/-- **Two readings side by side**, the first of which is about earlier parts. -/
theorem pair {x : Checked α} {y : Checked β} (hx : x.Precise j keysAt) (hy : y.Precise j keysAt)
    (hacross : ∀ i ∈ x.issues, ∀ k ∈ y.issues, Precedes keysAt i.path k.path) :
    (x.pair y).Precise j keysAt := by
  refine ⟨?_, ?_, ?_⟩
  · intro hempty
    have hnone : (x.pair y).issues = [] := congrArg issues hempty
    rw [issues_pair, List.append_eq_nil_iff] at hnone
    obtain ⟨hxs, hys⟩ := hnone
    cases x with
    | error first => exact hx.nonempty (congrArg Except.error hxs)
    | ok a =>
        cases y with
        | error second => exact hy.nonempty (congrArg Except.error hys)
        | ok b => cases hempty
  · rw [issues_pair]
    exact List.forall_mem_append.2 ⟨hx.pointing, hy.pointing⟩
  · rw [issues_pair]
    exact List.pairwise_append.2 ⟨hx.ordered, hy.ordered, hacross⟩

/-- **The items of a list**, from an index on. -/
theorem collect {f : Json → Checked α} {itemKeysAt : List PathStep → List FieldKey}
    (hf : ∀ part, (f part).Precise part itemKeysAt)
    (hkeys : ∀ i path, keysAt (.index i :: path) = itemKeysAt path) (items : List Json) :
    ∀ front, (Checked.collect f front.length items).Precise (.array (front ++ items)) keysAt
      ∧ ∀ i ∈ (Checked.collect f front.length items).issues,
          ∃ n rest, front.length ≤ n ∧ i.path = .index n :: rest := by
  induction items with
  | nil => exact fun front => ⟨ok [], nofun⟩
  | cons item rest ih =>
      intro front
      obtain ⟨hrest, hlater⟩ := ih (front ++ [item])
      rw [List.length_append, List.length_singleton] at hrest hlater
      rw [List.append_assoc, List.singleton_append] at hrest
      have hstep : (Json.array (front ++ item :: rest)).step? (.index front.length)
          = some item := by
        show (front ++ item :: rest)[front.length]? = some item
        rw [List.getElem?_append_right (Nat.le_refl _), Nat.sub_self]
        rfl
      have hfirst : (Checked.under (.index front.length) (f item)).Precise
          (.array (front ++ item :: rest)) keysAt := by
        refine under hstep ?_
        simp only [hkeys]
        exact hf item
      unfold Checked.collect
      constructor
      · -- the issues of the first item are under its index, all others under later ones
        refine (hfirst.pair hrest ?_).map _
        intro i hi k hk
        rw [issues_under] at hi
        obtain ⟨i', -, rfl⟩ := List.mem_map.1 hi
        obtain ⟨n, path, hn, hpath⟩ := hlater k hk
        rw [hpath]
        exact .index i'.path path hn
      · rw [issues_map, issues_pair, issues_under]
        intro i hi
        rcases List.mem_append.1 hi with hi | hi
        · obtain ⟨i', -, rfl⟩ := List.mem_map.1 hi
          exact ⟨front.length, i'.path, Nat.le_refl _, rfl⟩
        · obtain ⟨n, path, hn, hpath⟩ := hlater i hi
          exact ⟨n, path, Nat.le_of_succ_le hn, hpath⟩

end Precise

end Checked

/-! ## §2. Fields. -/

theorem FieldKey.find?_eq_some {k : FieldKey} {members : List (String × Json)} {s : String}
    {j : Json} (h : k.find? members = some (s, j)) : k.Names s ∧ members.lookup s = some j := by
  unfold find? at h
  split at h
  next found hcamel =>
    cases h
    exact ⟨.inl rfl, hcamel⟩
  next =>
    obtain ⟨found, hplain, hpair⟩ := Option.map_eq_some_iff.1 h
    cases hpair
    exact ⟨.inr rfl, hplain⟩

theorem FieldKey.lookup_camel_of_find? {k : FieldKey} {members : List (String × Json)}
    (h : k.find? members = none) : members.lookup k.camel = none := by
  unfold find? at h
  split at h
  next => cases h
  next hcamel => exact hcamel

/-- The same for an outcome of reading some fields of an object: every path starts at one of their
keys. -/
structure Checked.PreciseFor {α : Type} (x : Checked α) (members : List (String × Json))
    (keysAt : List PathStep → List FieldKey) (keys : List FieldKey) : Prop where
  precise : x.Precise (.object members) keysAt
  starts : ∀ i ∈ x.issues, ∃ key ∈ keys, ∃ k rest, key.Names k ∧ i.path = .key k :: rest

namespace Checked.PreciseFor

variable {α β : Type} {members : List (String × Json)} {keysAt : List PathStep → List FieldKey}

theorem ok (a : α) (keys : List FieldKey) : PreciseFor (.ok a) members keysAt keys := ⟨.ok a, nofun⟩

/-- The reading of a field that is there. -/
theorem found {key : FieldKey} {k : String} {j : Json}
    {valueKeysAt : List PathStep → List FieldKey} {x : Checked α}
    (hfind : key.find? members = some (k, j)) (hx : x.Precise j valueKeysAt)
    (hkeys : ∀ k path, key.Names k → keysAt (.key k :: path) = valueKeysAt path) :
    (x.under (.key k)).PreciseFor members keysAt [key] := by
  obtain ⟨hname, hlookup⟩ := FieldKey.find?_eq_some hfind
  constructor
  · have hstep : (Json.object members).step? (.key k) = some j := hlookup
    refine .under hstep ?_
    simp only [fun path => hkeys k path hname]
    exact hx
  · rw [issues_under]
    intro i hi
    obtain ⟨i', -, rfl⟩ := List.mem_map.1 hi
    exact ⟨key, List.mem_cons_self, k, i'.path, hname, rfl⟩

/-- The reading of a field that is needed and not there. -/
theorem missing {key : FieldKey} (hfind : key.find? members = none) :
    PreciseFor (.error [⟨[.key key.camel], .missing⟩] : Checked α) members keysAt [key] := by
  constructor
  · have hobject : (Json.object members).follow? [] = some (.object members) := rfl
    exact .one (.absent hobject (FieldKey.lookup_camel_of_find? hfind))
  · exact List.forall_mem_singleton.2 ⟨key, List.mem_cons_self, key.camel, [], .inl rfl, rfl⟩

/-- **Fields side by side**, the first of which has no spelling in common with the others. -/
theorem pair {key : FieldKey} {front keys : List FieldKey} {x : Checked α} {y : Checked β}
    (hroot : keysAt [] = front ++ key :: keys) (hapart : ∀ l ∈ keys, key.Apart l)
    (hx : x.PreciseFor members keysAt [key]) (hy : y.PreciseFor members keysAt keys) :
    (x.pair y).PreciseFor members keysAt (key :: keys) := by
  constructor
  · -- no spelling belongs to two fields, so the paths part at their first step
    refine hx.precise.pair hy.precise ?_
    intro i hi l hl
    obtain ⟨first, hfirst, k, p, hk, hip⟩ := hx.starts i hi
    obtain rfl := List.mem_singleton.1 hfirst
    obtain ⟨later, hlater, k', q, hk', hlq⟩ := hy.starts l hl
    have hsublist : [first, later].Sublist (keysAt []) := by
      rw [hroot]
      exact ((List.singleton_sublist.2 hlater).cons_cons first).trans
        (List.sublist_append_right _ _)
    have hne : k ≠ k' := fun heq => (hapart later hlater).not_names hk (heq ▸ hk')
    rw [hip, hlq]
    exact .field p q hsublist hk hk' hne
  · rw [issues_pair]
    intro i hi
    rcases List.mem_append.1 hi with hi | hi
    · obtain ⟨first, hfirst, hstart⟩ := hx.starts i hi
      obtain rfl := List.mem_singleton.1 hfirst
      exact ⟨first, List.mem_cons_self, hstart⟩
    · obtain ⟨later, hlater, hstart⟩ := hy.starts i hi
      exact ⟨later, List.mem_cons_of_mem _ hlater, hstart⟩

/-- **One more field**, when the keys below all fields are those of the first one or of the rest. -/
theorem cons {key : FieldKey} {front keys : List FieldKey}
    {valueKeysAt : List PathStep → List FieldKey}
    {restBelow : String → List PathStep → List FieldKey} {x : Checked α} {y : Checked β}
    (hroot : keysAt [] = front ++ key :: keys) (hapart : ∀ l ∈ keys, key.Apart l)
    (hbelow : ∀ l ∈ key :: keys, ∀ k path, l.Names k → keysAt (.key k :: path)
      = if key.Names k then valueKeysAt path else restBelow k path)
    (hx : (∀ k path, key.Names k → keysAt (.key k :: path) = valueKeysAt path) →
      x.PreciseFor members keysAt [key])
    (hy : ∀ before, keysAt [] = before ++ keys →
      (∀ l ∈ keys, ∀ k path, l.Names k → keysAt (.key k :: path) = restBelow k path) →
      y.PreciseFor members keysAt keys) :
    (x.pair y).PreciseFor members keysAt (key :: keys) := by
  refine pair hroot hapart (hx ?_) (hy (front ++ [key]) ?_ ?_)
  · intro k path hk
    rw [hbelow key List.mem_cons_self k path hk, if_pos hk]
  · rw [hroot, List.append_cons]
  · intro l hl k path hk
    rw [hbelow l (List.mem_cons_of_mem _ hl) k path hk,
      if_neg ((hapart l hl).symm.not_names hk)]

end Checked.PreciseFor

/-! ## §3. Schemas. -/

mutual

/-- Whether no check of a schema calls missing what is there. -/
def Schema.Candid {α : Type} : Schema α → Prop
  | .list _ item => item.Candid
  | .record _ _ fields => fields.Candid
  | .union variants => variants.Candid
  | .refine base make _ _ => base.Candid ∧ ∀ b, make b ≠ .error .missing
  | _ => True

/-- The same for the schemas of all fields. -/
def Fields.Candid {α : Type} : Fields α → Prop
  | .nil => True
  | .required _ value rest => value.Candid ∧ rest.Candid
  | .defaulted _ value _ rest => value.Candid ∧ rest.Candid
  | .optional _ value rest => value.Candid ∧ rest.Candid

/-- The same for the schemas of all alternatives. -/
def Variants.Candid {α : Type} : Variants α → Prop
  | .last _ value => value.Candid
  | .more _ value rest => value.Candid ∧ rest.Candid

end

theorem Json.toInteger_ne_missing (j : Json) : j.toInteger ≠ .error .missing := by
  cases j with
  | decimal d =>
      show d.toInteger ≠ _
      unfold Decimal.toInteger
      split
      · split
        · nofun
        · split <;> nofun
      · nofun
  | text s =>
      simp only [toInteger]
      split <;> nofun
  | _ => nofun

theorem position_ne_missing (n : Int) : position n ≠ .error .missing := by
  unfold position
  split
  · nofun
  · split <;> nofun

theorem Choice.read_precise {α : Type} (form : ChoiceForm) (options : Choice α) (j : Json)
    (keysAt : List PathStep → List FieldKey) : (options.read form j).Precise j keysAt := by
  cases j with
  | text s =>
      unfold Choice.read
      dsimp only
      cases options.ofName? s with
      | some a => exact .ok a
      | none => exact .refuse nofun
  | _ => exact .refuse nofun

mutual

/-- **The issues of a reading** point into the data and come in the order of its parts. -/
theorem Schema.read_precise :
    ∀ {α : Type} (s : Schema α), s.unambiguous → s.Candid → ∀ j, (s.read j).Precise j s.keysAt
  | _, .integer, _, _, j => .ofExcept j.toInteger_ne_missing
  | _, .position, _, _, j => by
      have hmissing := j.toInteger_ne_missing
      unfold Schema.read
      cases hout : j.toInteger with
      | ok n => exact .ofExcept (position_ne_missing n)
      | error cause =>
          rw [hout] at hmissing
          exact .refuse fun heq => hmissing (congrArg Except.error heq)
  | _, .text, _, _, j => by
      unfold Schema.read
      split
      · exact .ok _
      · exact .refuse nofun
  | _, .choice form options, _, _, j => options.read_precise form j _
  | _, .list form item, h, hcandid, j => by
      unfold Schema.read
      split
      next items =>
        exact (Checked.Precise.collect (item.read_precise h hcandid) (fun _ _ => rfl) items []).1
      next => exact .refuse nofun
  | _, .record form name fields, h, hcandid, j => by
      obtain ⟨hapart, hfields⟩ := Bool.and_eq_true_iff.1 h
      unfold Schema.read
      split
      next members =>
        exact (fields.read_precise hfields (of_decide_eq_true hapart) hcandid members [] _ rfl
          fun _ _ _ _ _ => rfl).precise
      next => exact .refuse nofun
  | _, .union variants, h, hcandid, j => by
      obtain ⟨-, hvariants⟩ := Bool.and_eq_true_iff.1 h
      unfold Schema.read
      split
      next members =>
        split
        next => exact .refuse nofun
        next found hkind =>
          split
          next result hresult =>
            split at hresult
            -- the tag that chose the alternative is the one that the data carries
            next tag =>
              exact variants.read_precise hvariants hcandid (.object members) tag hkind _
                (fun _ => rfl) result hresult
            next => cases hresult
          next => exact .refuse nofun
      next => exact .refuse nofun
  | _, .refine base make _ _, h, hcandid, j => by
      have hbase := base.read_precise h hcandid.1 j
      unfold Schema.read
      split
      -- the check runs only when nothing below it is wrong, so it is the only issue
      next b _ => exact .ofExcept (hcandid.2 b)
      next issues hissues =>
        rw [hissues] at hbase
        exact ⟨fun hempty => hbase.nonempty (by rw [Except.error.inj hempty]), hbase.pointing,
          hbase.ordered⟩

/-- The issues of the fields of a record, behind those with the keys `front`. -/
theorem Fields.read_precise :
    ∀ {α : Type} (fs : Fields α), fs.unambiguous → fs.keys.Pairwise FieldKey.Apart → fs.Candid →
      ∀ (members : List (String × Json)) (front : List FieldKey)
        (keysAt : List PathStep → List FieldKey), keysAt [] = front ++ fs.keys →
        (∀ key ∈ fs.keys, ∀ k path, key.Names k → keysAt (.key k :: path) = fs.keysBelow k path) →
        (fs.read members).PreciseFor members keysAt fs.keys
  | _, .nil, _, _, _, _, _, _, _, _ => .ok () []
  | _, .required key value rest, h, hapart, hcandid, members, front, keysAt, hroot, hbelow => by
      obtain ⟨hvalue, hrest⟩ := Bool.and_eq_true_iff.1 h
      obtain ⟨hkey, hkeys⟩ := List.pairwise_cons.1 hapart
      refine .cons hroot hkey hbelow ?_
        fun before => rest.read_precise hrest hkeys hcandid.2 members before keysAt
      intro hvalueKeys
      cases hfind : key.find? members with
      | none => exact .missing hfind
      | some found =>
          exact .found hfind (value.read_precise hvalue hcandid.1 found.2) hvalueKeys
  | _, .defaulted key value absent rest, h, hapart, hcandid, members, front, keysAt, hroot,
      hbelow => by
      obtain ⟨hvalue, hrest⟩ := Bool.and_eq_true_iff.1 h
      obtain ⟨hkey, hkeys⟩ := List.pairwise_cons.1 hapart
      refine .cons hroot hkey hbelow ?_
        fun before => rest.read_precise hrest hkeys hcandid.2 members before keysAt
      intro hvalueKeys
      cases hfind : key.find? members with
      | none => exact .ok absent [key]
      | some found =>
          exact .found hfind (value.read_precise hvalue hcandid.1 found.2) hvalueKeys
  | _, .optional key value rest, h, hapart, hcandid, members, front, keysAt, hroot, hbelow => by
      obtain ⟨hvalue, hrest⟩ := Bool.and_eq_true_iff.1 h
      obtain ⟨hkey, hkeys⟩ := List.pairwise_cons.1 hapart
      refine .cons hroot hkey hbelow ?_
        fun before => rest.read_precise hrest hkeys hcandid.2 members before keysAt
      intro hvalueKeys
      cases hfind : key.find? members with
      | none => exact .ok none [key]
      | some found =>
          obtain ⟨k, j⟩ := found
          -- null stands for no value, and nothing is read there
          split
          next => exact .ok none [key]
          next hpair =>
            cases hpair
            exact .found hfind ((value.read_precise hvalue hcandid.1 j).map some) hvalueKeys
          next hpair => cases hpair

/-- The issues of the alternative with a tag. -/
theorem Variants.read_precise :
    ∀ {α : Type} (vs : Variants α), vs.unambiguous → vs.Candid → ∀ (j : Json) (tag : String),
      j.member? "kind" = some (.text tag) →
      ∀ keysAt : List PathStep → List FieldKey,
        (∀ path, keysAt (.tag tag :: path) = vs.keysBelow tag path) →
        ∀ result, vs.read tag j = some result → result.Precise j keysAt
  | _, .last t value, h, hcandid, j, tag, hkind, keysAt, hkeys, result, hresult => by
      obtain ⟨-, hvalue⟩ := Bool.and_eq_true_iff.1 h
      unfold Variants.read at hresult
      split at hresult
      next htag =>
        subst htag
        cases hresult
        simp only [Variants.keysBelow, if_pos] at hkeys
        refine .under (Json.step?_tag hkind) ?_
        simp only [hkeys]
        exact value.read_precise hvalue hcandid j
      next => cases hresult
  | _, .more t value rest, h, hcandid, j, tag, hkind, keysAt, hkeys, result, hresult => by
      obtain ⟨hhead, hrest⟩ := Bool.and_eq_true_iff.1 h
      obtain ⟨-, hvalue⟩ := Bool.and_eq_true_iff.1 hhead
      unfold Variants.read at hresult
      split at hresult
      next htag =>
        subst htag
        cases hresult
        simp only [Variants.keysBelow, if_pos] at hkeys
        refine .under (Json.step?_tag hkind) ?_
        simp only [hkeys]
        exact (value.read_precise hvalue hcandid.1 j).map _
      next htag =>
        obtain ⟨other, hother, rfl⟩ := Option.map_eq_some_iff.1 hresult
        simp only [Variants.keysBelow, if_neg htag] at hkeys
        exact (rest.read_precise hrest hcandid.2 j tag hkind keysAt hkeys other hother).map _

end

/-! ## §4. All classes. -/

/-- The schema of a class of documents. -/
def ElementClass.form : ElementClass → (α : Type) × Schema α
  | .location => ⟨_, Location.schema⟩
  | .bare => ⟨_, bareSchema⟩
  | .located => ⟨_, locatedSchema⟩
  | .comment => ⟨_, Comment.schema⟩
  | .tag => ⟨_, Tag.schema⟩
  | .tableCell => ⟨_, TableCell.schema⟩
  | .tableRow => ⟨_, TableRow.schema⟩
  | .dataTable => ⟨_, DataTable.schema⟩
  | .docString => ⟨_, DocString.schema⟩
  | .step => ⟨_, Step.schema⟩
  | .examples => ⟨_, Examples.schema⟩
  | .scenario => ⟨_, Scenario.schema⟩
  | .background => ⟨_, Background.schema⟩
  | .backgroundChild => ⟨_, Background.childSchema⟩
  | .scenarioChild => ⟨_, Scenario.childSchema⟩
  | .rule => ⟨_, Rule.schema⟩
  | .featureRuleChild => ⟨_, Rule.childSchema⟩
  | .feature => ⟨_, Feature.schema⟩
  | .document => ⟨_, Document.schema⟩

/-- The schema of a class. -/
def DataClass.form : DataClass → (α : Type) × Schema α
  | .item => ⟨_, Item.schema⟩
  | .token => ⟨_, Token.schema⟩
  | .event => ⟨_, Event.schema⟩
  | .element c => c.form

/-- An instance is read by the schema of its class. -/
theorem Element.read_eq (c : ElementClass) :
    ∃ wrap : c.form.1 → Element, ∀ j, Element.read c j = .map wrap (c.form.2.read j) := by
  cases c <;> exact ⟨_, fun _ => rfl⟩

theorem Datum.read_eq (c : DataClass) :
    ∃ wrap : c.form.1 → Datum, ∀ j, Datum.read c j = .map wrap (c.form.2.read j) := by
  cases c with
  | element c =>
      obtain ⟨wrap, hwrap⟩ := Element.read_eq c
      refine ⟨fun a => .element (wrap a), ?_⟩
      intro j
      show Checked.map Datum.element (Element.read c j) = Checked.map _ (c.form.2.read j)
      rw [hwrap]
      cases c.form.2.read j <;> rfl
  | _ => exact ⟨_, fun _ => rfl⟩

theorem DataClass.unambiguous_form (c : DataClass) : c.form.2.unambiguous := by
  cases c with
  | element c => cases c <;> decide
  | _ => decide

theorem Event.ofParts_ne_missing (parts : EventKind × Option RuleType × Option Token) :
    Event.ofParts parts ≠ .error .missing := by
  unfold Event.ofParts
  split <;> nofun

/-- A change of dress refuses nothing. -/
theorem Schema.candid_as_iff {α β : Type} {base : Schema β} {make : β → α} {parts : α → β}
    {hmake : ∀ a, make (parts a) = a} :
    (Schema.as base make parts hmake).Candid ↔ base.Candid :=
  ⟨fun h => h.1, fun h => ⟨h, fun _ => nofun⟩⟩

/-- Only events have a check, and it names what is lacking. -/
theorem Event.candid_schema : Event.schema.Candid :=
  ⟨⟨trivial, trivial,
    by simp only [Token.schema, Location.schema, Item.schema, Schema.model, Schema.textOrEmpty,
      Schema.candid_as_iff, Schema.Candid, Fields.Candid, and_self],
    trivial⟩, fun parts => Event.ofParts_ne_missing _⟩

theorem DataClass.candid_form (c : DataClass) : c.form.2.Candid := by
  cases c with
  | event => exact Event.candid_schema
  | item | token =>
      simp only [form, Token.schema, Item.schema, Location.schema, Schema.model, Schema.textOrEmpty,
        Schema.candid_as_iff, Schema.Candid, Fields.Candid, and_self]
  | element c =>
      show c.form.2.Candid
      cases c <;>
        simp only [ElementClass.form, Document.schema, Feature.schema, FeatureChild.schema,
          Rule.childSchema, Rule.schema, RuleChild.schema, Scenario.childSchema, Scenario.schema,
          Background.childSchema, Background.schema, Schema.child, Examples.schema, Step.schema,
          DocString.schema, DataTable.schema, TableRow.schema, TableCell.schema, Tag.schema,
          Comment.schema, locatedSchema, bareSchema, Location.schema, Schema.model,
          Schema.textOrEmpty, Schema.listOrEmpty, Schema.candid_as_iff, Schema.Candid,
          Fields.Candid, Variants.Candid, and_self]

/-- The fields of an instance, in their fixed order, at each path into its data. -/
def DataClass.keysAt (c : DataClass) : List PathStep → List FieldKey := c.form.2.keysAt

/-- Whether keys start with that of the place, if it is among them. -/
def locationFirst (keys : List FieldKey) : Bool :=
  decide (.same "location" ∈ keys → keys.head? = some (.same "location"))

theorem ElementClass.locationFirst_form (c : ElementClass) :
    c.form.2.everyRecord locationFirst := by
  cases c <;> decide

/-- What holds of the issues with data for a class: each is about a part of the data or about a key
that is not there, no two are about the same part or about a part and what is in it, and they come
in the order of fields and items. -/
structure Pinpoints (c : DataClass) (j : Json) (issues : List Issue) : Prop where
  nonempty : issues ≠ []
  pointing : ∀ i ∈ issues, i.PointsInto j
  apart : issues.Pairwise fun i k => ¬ i.shown <+: k.shown ∧ ¬ k.shown <+: i.shown
  ordered : issues.Pairwise fun i k => Precedes c.keysAt i.path k.path

/-- **Validation succeeds, or its issues point into the data, once each.**  They come in the order
of the fields of each class, and in classes of documents the place is the first field. -/
theorem validate_pinpoints :
    (∀ (c : DataClass) (j : Json), (∃ d, Datum.validate c j = .ok d)
        ∨ ∃ issues, Datum.validate c j = .error ⟨c.name, issues⟩ ∧ Pinpoints c j issues)
      ∧ ∀ (c : ElementClass) (path : List PathStep),
          FieldKey.same "location" ∈ (DataClass.element c).keysAt path →
            ((DataClass.element c).keysAt path).head? = some (FieldKey.same "location") := by
  constructor
  · intro c j
    obtain ⟨wrap, hread⟩ := Datum.read_eq c
    have hprecise : (Datum.read c j).Precise j c.keysAt := by
      rw [hread]
      exact (c.form.2.read_precise c.unambiguous_form c.candid_form j).map wrap
    unfold Datum.validate
    cases hout : Datum.read c j with
    | ok d => exact .inl ⟨d, rfl⟩
    | error issues =>
        rw [hout] at hprecise
        refine .inr ⟨issues, rfl, ?_, hprecise.pointing, ?_, hprecise.ordered⟩
        · exact fun hempty => hprecise.nonempty (congrArg Except.error hempty)
        · exact hprecise.ordered.imp fun hprecedes => hprecedes.not_prefix
  · intro c path
    exact of_decide_eq_true
      (c.form.2.keysAt_of_everyRecord (by decide) c.locationFirst_form path)

/-- Data for a feature with issues at three depths, one of them below a tag, and one with a key that
is not there. -/
def brokenFeature : Json :=
  .object
    [ ("location", .object [("line", .int (-1)), ("column", .int 1)]),
      ("keyword", .text "Feature"),
      ("children", .array [.object [("kind", .text "rule"), ("rule", .null)], .null]) ]

theorem pinpoints_brokenFeature :
    ∃ issues, Datum.validate (.element .feature) brokenFeature = .error ⟨"Feature", issues⟩
      ∧ Pinpoints (.element .feature) brokenFeature issues
      ∧ issues =
        [ ⟨[.key "location", .key "line"], .belowZero⟩,
          ⟨[.key "name"], .missing⟩,
          ⟨[.key "children", .index 0, .tag "rule", .key "rule"], .notRecord .model "Rule"⟩,
          ⟨[.key "children", .index 1], .notTagged⟩ ] := by
  have hread : Datum.validate (.element .feature) brokenFeature = .error ⟨"Feature", _⟩ := rfl
  rcases validate_pinpoints.1 (.element .feature) brokenFeature with
    ⟨d, hok⟩ | ⟨issues, herror, hpinpoints⟩
  · cases hread.symm.trans hok
  · refine ⟨issues, herror, hpinpoints, ?_⟩
    cases hread.symm.trans herror
    rfl

end Gherkin
