/-
  Gherkin.Proofs.Spelling
  ───────────────────────
  **ONLY RECOGNISED KEYS ARE READ, IN EITHER SPELLING.**

  Two pieces of data that differ in one object, somewhere deep inside, are
  read alike if the difference is one that the reading of that object does not
  see.  There are three such differences:

    • `Respelt`      — a key goes over to the other spelling of its field,
    • `Shadowed`     — something happens to the plain spelling of a key while
      the camel-case one is there,
    • `Unrecognised` — something happens to a key that no field has.

  `Schema.ChangedAt` carries a change of one object to the data around it, and
  `Schema.ChangedAt.read` is the one induction over that relation: it needs to
  know only how the fields of the changed object are found
  (`FieldKey.FoundAlike`).  A new spelling shows in the paths of issues and
  nowhere else; `Issue.respell` says where.  `validate_sees_recognised_keys`
  puts this together for all classes.
-/
import Gherkin.Proofs.Issues
import Mathlib.Data.List.Pairwise

namespace Gherkin

/-! ## §1. Objects that differ under some keys. -/

/-- Whether two objects have the same members, except under some keys. -/
def SameExcept (keys : List String) (ms ms' : List (String × Json)) : Prop :=
  ∀ k, k ∉ keys → ms'.lookup k = ms.lookup k

namespace SameExcept

/-- A member in the middle can change its key and its value. -/
theorem replace (k k' : String) (j j' : Json) (before after : List (String × Json)) :
    SameExcept [k, k'] (before ++ (k, j) :: after) (before ++ (k', j') :: after) := by
  intro s hs
  obtain ⟨hk, hk'⟩ : s ≠ k ∧ s ≠ k' := by simpa using hs
  have hne : (s == k) = false := beq_false_of_ne hk
  have hne' : (s == k') = false := beq_false_of_ne hk'
  rw [List.lookup_append, List.lookup_append, List.lookup_cons, List.lookup_cons, hne, hne']

/-- A member in the middle can change its value. -/
theorem set (k : String) (j j' : Json) (before after : List (String × Json)) :
    SameExcept [k] (before ++ (k, j) :: after) (before ++ (k, j') :: after) := by
  intro s hs
  exact replace k k j j' before after s (by simpa using hs)

/-- A member can be left out. -/
theorem erase (k : String) (j : Json) (before after : List (String × Json)) :
    SameExcept [k] (before ++ (k, j) :: after) (before ++ after) := by
  intro s hs
  have hne : (s == k) = false := beq_false_of_ne (mt List.mem_singleton.2 hs)
  rw [List.lookup_append, List.lookup_append, List.lookup_cons, hne]

theorem lookup_eq {k s : String} {ms ms' : List (String × Json)} (h : SameExcept [k] ms ms')
    (hne : s ≠ k) : ms'.lookup s = ms.lookup s :=
  h s (mt List.mem_singleton.1 hne)

end SameExcept

/-- What can happen to an object that is read as a record with the given keys. -/
abbrev ObjectChange : Type := List FieldKey → List (String × Json) → List (String × Json) → Prop

/-- A key of a field with two spellings goes over from one to the other, which was free. -/
structure Respelt (old new : String) (keys : List FieldKey) (ms ms' : List (String × Json)) :
    Prop where
  field : ∃ k ∈ keys, k.plain ≠ k.camel
    ∧ (old = k.plain ∧ new = k.camel ∨ old = k.camel ∧ new = k.plain)
  free : ms.lookup new = none
  gone : ms'.lookup old = none
  moved : ∃ j, ms.lookup old = some j ∧ ms'.lookup new = some j
  others : SameExcept [old, new] ms ms'

/-- Something happens to the plain spelling of a key while the camel-case one is there. -/
def Shadowed (keys : List FieldKey) (ms ms' : List (String × Json)) : Prop :=
  ∃ k ∈ keys, k.plain ≠ k.camel ∧ (ms.lookup k.camel).isSome ∧ SameExcept [k.plain] ms ms'

/-- Something happens to a key that is no spelling of any field's key. -/
def Unrecognised (keys : List FieldKey) (ms ms' : List (String × Json)) : Prop :=
  ∃ s, (∀ k ∈ keys, ¬ k.Names s) ∧ SameExcept [s] ms ms'

/-- A respelling on the spot. -/
theorem Respelt.replace {k : FieldKey} {keys : List FieldKey} (hk : k ∈ keys)
    {old new : String} (hne : k.plain ≠ k.camel)
    (hspelling : old = k.plain ∧ new = k.camel ∨ old = k.camel ∧ new = k.plain) (j : Json)
    (before after : List (String × Json)) (hbefore : ∀ m ∈ before, ¬ k.Names m.1)
    (hafter : ∀ m ∈ after, ¬ k.Names m.1) :
    Respelt old new keys (before ++ (old, j) :: after) (before ++ (new, j) :: after) := by
  have hnames : k.Names old ∧ k.Names new ∧ old ≠ new := by
    rcases hspelling with ⟨rfl, rfl⟩ | ⟨rfl, rfl⟩
    · exact ⟨.inr rfl, .inl rfl, hne⟩
    · exact ⟨.inl rfl, .inr rfl, hne.symm⟩
  obtain ⟨hold, hnew, hdiffer⟩ := hnames
  have hnone : ∀ ms : List (String × Json), (∀ m ∈ ms, ¬ k.Names m.1) → ∀ s, k.Names s →
      ms.lookup s = none :=
    fun ms hms s hs => FieldKey.lookup_eq_none fun m hm heq => hms m hm (heq ▸ hs)
  -- what is looked up under a spelling of the key is found at the spot or nowhere
  have hspot : ∀ s t, k.Names s → (before ++ (t, j) :: after).lookup s
      = if s = t then some j else none := by
    intro s t hs
    rw [List.lookup_append, hnone before hbefore s hs, List.lookup_cons]
    by_cases h : s = t
    · simp [h]
    · simp [h, beq_false_of_ne h, hnone after hafter s hs]
  refine ⟨⟨k, hk, hne, hspelling⟩, ?_, ?_, ⟨j, ?_, ?_⟩, .replace old new j j before after⟩
  · rw [hspot new old hnew, if_neg hdiffer.symm]
  · rw [hspot old new hold, if_neg hdiffer]
  · rw [hspot old old hold, if_pos rfl]
  · rw [hspot new new hnew, if_pos rfl]

/-! ## §2. How fields are found. -/

/-- Whether a field is found alike in two objects: where it was, or under a new spelling. -/
inductive FieldKey.FoundAlike (old new : String) (key : FieldKey) (ms ms' : List (String × Json)) :
    Prop
  | kept (hfind : key.find? ms' = key.find? ms) (hold : key.Names old → old = new) :
      FoundAlike old new key ms ms'
  | moved {j : Json} (hfind : key.find? ms = some (old, j))
      (hfind' : key.find? ms' = some (new, j)) : FoundAlike old new key ms ms'

namespace FieldKey

theorem find?_congr {key : FieldKey} {ms ms' : List (String × Json)}
    (h : ∀ s, key.Names s → ms'.lookup s = ms.lookup s) : key.find? ms' = key.find? ms := by
  unfold find?
  rw [h key.camel (.inl rfl), h key.plain (.inr rfl)]

/-- The value of a key with a single spelling. -/
theorem value_same (s : String) (ms : List (String × Json)) :
    ((same s).find? ms).map Prod.snd = ms.lookup s := by
  unfold find? same
  cases ms.lookup s <;> rfl

/-- Whatever key a field is found under, its value is the same. -/
theorem FoundAlike.value_eq {old new : String} {key : FieldKey} {ms ms' : List (String × Json)}
    (h : key.FoundAlike old new ms ms') :
    (key.find? ms').map Prod.snd = (key.find? ms).map Prod.snd := by
  cases h with
  | kept hfind => rw [hfind]
  | moved hfind hfind' => rw [hfind, hfind']; rfl

/-- The value of a field changes where it was found. -/
theorem find?_of_sameExcept {key : FieldKey} {ms ms' : List (String × Json)} {k : String}
    {j j' : Json} (hfind : key.find? ms = some (k, j)) (hlookup : ms'.lookup k = some j')
    (hsame : SameExcept [k] ms ms') : key.find? ms' = some (k, j') := by
  unfold find? at hfind ⊢
  split at hfind
  next found hcamel =>
    cases hfind
    rw [hlookup]
  next hcamel =>
    obtain ⟨found, hplain, hpair⟩ := Option.map_eq_some_iff.1 hfind
    cases hpair
    -- the plain spelling counts only while the other is not there
    have hne : key.camel ≠ key.plain := by
      intro heq
      rw [heq, hplain] at hcamel
      cases hcamel
    rw [hsame.lookup_eq hne, hcamel, hlookup]
    rfl

instance : Std.Symm Apart := ⟨fun _ _ h => h.symm⟩

/-- Of two different keys of a record none has a spelling of the other. -/
theorem not_names_of_pairwise {keys : List FieldKey} (hkeys : keys.Pairwise Apart)
    {k l : FieldKey} (hk : k ∈ keys) (hl : l ∈ keys) (hne : l ≠ k) {s : String} (hs : k.Names s) :
    ¬ l.Names s :=
  (hkeys.forall hk hl hne.symm).not_names hs

end FieldKey

/-- Whether a change of objects leaves all fields to be found alike. -/
def Harmless (change : ObjectChange) (old new : String) : Prop :=
  ∀ keys ms ms', keys.Pairwise FieldKey.Apart → change keys ms ms' →
    ∀ key ∈ keys, key.FoundAlike old new ms ms'

/-- **Respelling a key** moves one field and keeps the others. -/
theorem harmless_respelt (old new : String) : Harmless (Respelt old new) old new := by
  intro keys ms ms' hkeys h key hkey
  obtain ⟨k, hk, hne, hspelling⟩ := h.field
  obtain ⟨j, hj, hj'⟩ := h.moved
  by_cases heq : key = k
  · -- camel case wins, so the plain spelling is found only because the other one is not there
    subst heq
    rcases hspelling with ⟨rfl, rfl⟩ | ⟨rfl, rfl⟩
    · refine .moved (j := j) ?_ ?_
      · unfold FieldKey.find?
        rw [h.free, hj]
        rfl
      · unfold FieldKey.find?
        rw [hj']
    · refine .moved (j := j) ?_ ?_
      · unfold FieldKey.find?
        rw [hj]
      · unfold FieldKey.find?
        rw [h.gone, hj']
        rfl
  · have hnames : k.Names old ∧ k.Names new := by
      rcases hspelling with ⟨rfl, rfl⟩ | ⟨rfl, rfl⟩
      · exact ⟨.inr rfl, .inl rfl⟩
      · exact ⟨.inl rfl, .inr rfl⟩
    have hold := FieldKey.not_names_of_pairwise hkeys hk hkey heq hnames.1
    have hnew := FieldKey.not_names_of_pairwise hkeys hk hkey heq hnames.2
    refine .kept (FieldKey.find?_congr ?_) fun h => absurd h hold
    intro s hs
    refine h.others s ?_
    simp only [List.mem_cons, List.not_mem_nil, or_false, not_or]
    exact ⟨fun h => hold (h ▸ hs), fun h => hnew (h ▸ hs)⟩

/-- **A shadowed key** is not looked at. -/
theorem harmless_shadowed (s : String) : Harmless Shadowed s s := by
  rintro keys ms ms' hkeys ⟨k, hk, hne, hcamel, hsame⟩ key hkey
  refine .kept ?_ fun _ => rfl
  by_cases heq : key = k
  · subst heq
    obtain ⟨j, hj⟩ := Option.isSome_iff_exists.1 hcamel
    unfold FieldKey.find?
    rw [hsame.lookup_eq hne.symm, hj]
  · have hplain := FieldKey.not_names_of_pairwise hkeys hk hkey heq (.inr rfl)
    apply FieldKey.find?_congr
    intro t ht
    exact hsame.lookup_eq fun h => hplain (h ▸ ht)

/-- **An unrecognised key** is not looked at. -/
theorem harmless_unrecognised (s : String) : Harmless Unrecognised s s := by
  rintro keys ms ms' - ⟨t, ht, hsame⟩ key hkey
  refine .kept (FieldKey.find?_congr ?_) fun _ => rfl
  intro u hu
  exact hsame.lookup_eq fun h => ht key hkey (h ▸ hu)

/-! ## §3. Issues with a key spelled anew. -/

/-- The path with the key `old` spelled `new` where it is the step right behind a place. -/
def respellPath (old new : String) : List PathStep → List PathStep → List PathStep
  | [], step :: path => (if step = .key old then .key new else step) :: path
  | s :: place, step :: path =>
    step :: if step = s then respellPath old new place path else path
  | _, [] => []

/-- The issue with the key `old` of the object at a place spelled `new`. -/
def Issue.respell (old new : String) (place : List PathStep) (i : Issue) : Issue :=
  ⟨respellPath old new place i.path, i.cause⟩

/-- The rejection with the key `old` of the object at a place spelled `new`. -/
def Rejection.respell (old new : String) (place : List PathStep) (r : Rejection) : Rejection :=
  ⟨r.subject, r.issues.map (Issue.respell old new place)⟩

theorem respellPath_self (s : String) (place path : List PathStep) :
    respellPath s s place path = path := by
  induction place generalizing path with
  | nil =>
      cases path with
      | nil => rfl
      | cons step path =>
          unfold respellPath
          split
          next h => rw [h]
          next => rfl
  | cons t place ih =>
      cases path with
      | nil => rfl
      | cons step path =>
          unfold respellPath
          rw [ih, ite_self]

namespace Issue

variable {old new : String}

@[simp] theorem respell_self (s : String) (place : List PathStep) : respell s s place = id := by
  funext i
  unfold respell
  rw [respellPath_self]
  rfl

/-- An issue at the top is at no key. -/
theorem respell_here (place : List PathStep) (cause : Cause) :
    (here cause).respell old new place = here cause := by
  cases place <;> rfl

theorem respell_under (s : PathStep) (place : List PathStep) (i : Issue) :
    (i.under s).respell old new (s :: place) = (i.respell old new place).under s := by
  show Issue.mk (s :: if s = s then _ else _) i.cause = _
  rw [if_pos rfl]
  rfl

theorem respell_under_of_ne {s t : PathStep} (h : t ≠ s) (place : List PathStep) (i : Issue) :
    (i.under t).respell old new (s :: place) = i.under t := by
  show Issue.mk (t :: if t = s then _ else i.path) i.cause = _
  rw [if_neg h]
  rfl

theorem respell_key (i : Issue) : (i.under (.key old)).respell old new [] = i.under (.key new) := by
  show Issue.mk ((if PathStep.key old = .key old then _ else _) :: i.path) i.cause = _
  rw [if_pos rfl]
  rfl

theorem respell_key_of_ne {k : String} (h : k = old → old = new) (i : Issue) :
    (i.under (.key k)).respell old new [] = i.under (.key k) := by
  show Issue.mk ((if PathStep.key k = .key old then _ else _) :: i.path) i.cause = _
  split
  next heq =>
    obtain rfl := PathStep.key.inj heq
    rw [← h rfl]
    rfl
  next => rfl

end Issue

namespace Checked

variable {α β : Type}

/-- The outcome with its issues changed one by one. -/
def reissue (f : Issue → Issue) : Checked α → Checked α
  | .ok a => .ok a
  | .error issues => .error (issues.map f)

variable {f g : Issue → Issue}

@[simp] theorem reissue_id (x : Checked α) : x.reissue id = x := by
  cases x with
  | ok a => rfl
  | error issues => exact congrArg Except.error (List.map_id issues)

theorem reissue_map (h : α → β) (x : Checked α) : (x.map h).reissue f = (x.reissue f).map h := by
  cases x <;> rfl

theorem reissue_pair (x : Checked α) (y : Checked β) :
    (x.pair y).reissue f = (x.reissue f).pair (y.reissue f) := by
  cases x with
  | ok a => cases y <;> rfl
  | error first =>
      cases y with
      | ok b => rfl
      | error second => exact congrArg Except.error List.map_append

theorem under_map (step : PathStep) (h : α → β) (x : Checked α) :
    (x.map h).under step = (x.under step).map h := by
  cases x <;> rfl

theorem reissue_ofExcept (h : ∀ cause, f (.here cause) = .here cause) (x : Except Cause α) :
    (ofExcept x).reissue f = ofExcept x := by
  cases x with
  | ok a => rfl
  | error cause => exact congrArg (fun i => Except.error [i]) (h cause)

/-- Changes of issues seen from one step further out. -/
theorem reissue_under {s t : PathStep} (h : ∀ i : Issue, f (i.under s) = (g i).under t)
    (x : Checked α) :
    (x.under s).reissue f = (x.reissue g).under t := by
  cases x with
  | ok a => rfl
  | error issues =>
      show Except.error ((issues.map (Issue.under s)).map f) = .error ((issues.map g).map _)
      rw [List.map_map, List.map_map]
      exact congrArg Except.error (List.map_congr_left fun i _ => h i)

/-- Issues under a step that is not affected stay as they are. -/
theorem reissue_under_eq {s : PathStep} (h : ∀ i : Issue, f (i.under s) = i.under s)
    (x : Checked α) : (x.under s).reissue f = x.under s := by
  rw [reissue_under (g := id) h, reissue_id]

/-- Issues of the items from an index on stay as they are if none of these indexes is affected. -/
theorem reissue_collect (read : α → Checked β) {n : Nat}
    (h : ∀ m, n ≤ m → ∀ i : Issue, f (i.under (.index m)) = i.under (.index m)) (items : List α) :
    (collect read n items).reissue f = collect read n items := by
  induction items generalizing n with
  | nil => rfl
  | cons item rest ih =>
      unfold collect
      rw [reissue_map, reissue_pair, reissue_under_eq (h n (Nat.le_refl n)),
        ih fun m hm => h m (Nat.le_of_succ_le hm)]

/-- **One item of a list changes**, and so do the issues under its index. -/
theorem collect_reissue {old new : String} {place : List PathStep} {read : α → Checked β} {j j' : α}
    (h : read j' = (read j).reissue (Issue.respell old new place)) (before after : List α) :
    ∀ n, collect read n (before ++ j' :: after)
      = (collect read n (before ++ j :: after)).reissue
          (Issue.respell old new (.index (n + before.length) :: place)) := by
  have hother : ∀ {m k : Nat}, m ≠ k → ∀ i : Issue,
      (i.under (.index m)).respell old new (.index k :: place) = i.under (.index m) :=
    fun hne i => Issue.respell_under_of_ne (fun heq => hne (PathStep.index.inj heq)) place i
  -- on the items before the changed one, which count its index up
  induction before with
  | nil =>
      intro n
      have hlater : ∀ m, n + 1 ≤ m → ∀ i : Issue,
          (i.under (.index m)).respell old new (.index n :: place) = i.under (.index m) :=
        fun m hm => hother (Nat.ne_of_gt hm)
      show map _ (pair (under (.index n) (read j')) (collect read (n + 1) after))
        = reissue (Issue.respell old new (.index n :: place))
            (map _ (pair (under (.index n) (read j)) (collect read (n + 1) after)))
      rw [h, reissue_map, reissue_pair, reissue_under (Issue.respell_under (.index n) place),
        reissue_collect read hlater]
  | cons item rest ih =>
      intro n
      have hlength : n + (item :: rest).length = n + 1 + rest.length := by
        rw [List.length_cons]
        omega
      have hne : n ≠ n + 1 + rest.length := by omega
      show map _ (pair (under (.index n) (read item)) (collect read (n + 1) (rest ++ j' :: after)))
        = reissue _ (map _ (pair (under (.index n) (read item))
            (collect read (n + 1) (rest ++ j :: after))))
      rw [hlength, ih (n + 1), reissue_map, reissue_pair, reissue_under_eq (hother hne)]

end Checked

/-! ## §4. A change of one object in the data around it. -/

/-- The fields of a record: their keys and the schemas of their values. -/
def Fields.entries {α : Type} : Fields α → List (FieldKey × (β : Type) × Schema β)
  | .nil => []
  | .required key value rest => (key, ⟨_, value⟩) :: rest.entries
  | .defaulted key value _ rest => (key, ⟨_, value⟩) :: rest.entries
  | .optional key value rest => (key, ⟨_, value⟩) :: rest.entries

/-- The alternatives of a union: their tags and schemas. -/
def Variants.entries {α : Type} : Variants α → List (String × (β : Type) × Schema β)
  | .last tag value => [(tag, ⟨_, value⟩)]
  | .more tag value rest => (tag, ⟨_, value⟩) :: rest.entries

/-- Whether data read by a schema differs by a change of the object at a place: that object is read
as a record, and the change is one of its members, given the keys of the record's fields. -/
inductive Schema.ChangedAt (change : ObjectChange) :
    {α : Type} → Schema α → List PathStep → Json → Json → Prop
  /-- The object itself. -/
  | here {α : Type} {form : RecordForm} {name : String} {fields : Fields α}
      {ms ms' : List (String × Json)} (hchange : change fields.keys ms ms') :
      ChangedAt change (.record form name fields) [] (.object ms) (.object ms')
  /-- Below a field, where the field is read. -/
  | field {α β : Type} {form : RecordForm} {name : String} {fields : Fields α} {key : FieldKey}
      {value : Schema β} {ms ms' : List (String × Json)} {k : String} {j j' : Json}
      {place : List PathStep} (hentry : (key, ⟨β, value⟩) ∈ fields.entries)
      (hfind : key.find? ms = some (k, j)) (hlookup : ms'.lookup k = some j')
      (hsame : SameExcept [k] ms ms') (hvalue : ChangedAt change value place j j') :
      ChangedAt change (.record form name fields) (.key k :: place) (.object ms) (.object ms')
  /-- Below an item of a list. -/
  | item {α : Type} {form : ListForm} {item : Schema α} {j j' : Json} {place : List PathStep}
      (before after : List Json) (hitem : ChangedAt change item place j j') :
      ChangedAt change (.list form item) (.index before.length :: place)
        (.array (before ++ j :: after)) (.array (before ++ j' :: after))
  /-- In the alternative that the tag names. -/
  | alternative {α β : Type} {variants : Variants α} {tag : String} {value : Schema β}
      {j j' : Json} {place : List PathStep} (hentry : (tag, ⟨β, value⟩) ∈ variants.entries)
      (htag : j.member? "kind" = some (.text tag)) (hvalue : ChangedAt change value place j j') :
      ChangedAt change (.union variants) (.tag tag :: place) j j'
  /-- In data that is checked further. -/
  | refined {α β : Type} {base : Schema β} {make : β → Except Cause α} {parts : α → β}
      {make_parts : ∀ a, make (parts a) = .ok a} {j j' : Json} {place : List PathStep}
      (hbase : ChangedAt change base place j j') :
      ChangedAt change (.refine base make parts make_parts) place j j'

theorem Fields.map_entries : ∀ {α : Type} (fs : Fields α), fs.entries.map Prod.fst = fs.keys
  | _, .nil => rfl
  | _, .required key _ rest | _, .defaulted key _ _ rest | _, .optional key _ rest =>
      congrArg (key :: ·) rest.map_entries

theorem Variants.map_entries : ∀ {α : Type} (vs : Variants α), vs.entries.map Prod.fst = vs.tags
  | _, .last _ _ => rfl
  | _, .more tag _ rest => congrArg (tag :: ·) rest.map_entries

/-- What is inside the changed data is no null. -/
theorem Schema.ChangedAt.ne_null {change : ObjectChange} {α : Type} {s : Schema α}
    {place : List PathStep} {j j' : Json} (h : s.ChangedAt change place j j') :
    j ≠ .null ∧ j' ≠ .null := by
  induction h with
  | here | field | item => exact ⟨nofun, nofun⟩
  | alternative _ _ _ ih | refined _ ih => exact ih

/-! ## §5. Reading changed data. -/

/-- Whether a field is read alike from two objects, up to a change of issues. -/
inductive Schema.ReadAlike {β : Type} (f : Issue → Issue) (key : FieldKey) (value : Schema β)
    (ms ms' : List (String × Json)) : Prop
  | absent (hfind : key.find? ms = none) (hfind' : key.find? ms' = none)
      (hmissing : f ⟨[.key key.camel], .missing⟩ = ⟨[.key key.camel], .missing⟩) :
      ReadAlike f key value ms ms'
  | found {k k' : String} {j j' : Json} (hfind : key.find? ms = some (k, j))
      (hfind' : key.find? ms' = some (k', j')) (hnull : j = .null ↔ j' = .null)
      (hread : (value.read j').under (.key k') = ((value.read j).under (.key k)).reissue f) :
      ReadAlike f key value ms ms'

/-- **Fields that are all read alike** make a record that is read alike. -/
theorem Fields.read_reissue {f : Issue → Issue} {ms ms' : List (String × Json)} :
    ∀ {α : Type} (fs : Fields α), (∀ e ∈ fs.entries, e.2.2.ReadAlike f e.1 ms ms') →
      fs.read ms' = (fs.read ms).reissue f
  | _, .nil, _ => rfl
  | _, .required key value rest, h => by
      obtain ⟨hhead, hrest⟩ := List.forall_mem_cons.1 h
      unfold Fields.read
      rw [Checked.reissue_pair, rest.read_reissue hrest]
      congr 1
      cases hhead with
      | absent hfind hfind' hmissing =>
          rw [hfind, hfind']
          exact congrArg (fun i => Except.error [i]) hmissing.symm
      | found hfind hfind' _ hread =>
          rw [hfind, hfind']
          exact hread
  | _, .defaulted key value absent rest, h => by
      obtain ⟨hhead, hrest⟩ := List.forall_mem_cons.1 h
      unfold Fields.read
      rw [Checked.reissue_pair, rest.read_reissue hrest]
      congr 1
      cases hhead with
      | absent hfind hfind' _ =>
          rw [hfind, hfind']
          rfl
      | found hfind hfind' _ hread =>
          rw [hfind, hfind']
          exact hread
  | _, .optional key value rest, h => by
      obtain ⟨hhead, hrest⟩ := List.forall_mem_cons.1 h
      unfold Fields.read
      rw [Checked.reissue_pair, rest.read_reissue hrest]
      congr 1
      cases hhead with
      | absent hfind hfind' _ =>
          rw [hfind, hfind']
          rfl
      | @found k k' j j' hfind hfind' hnull hread =>
          rw [hfind, hfind']
          by_cases hj : j = .null
          · rw [hj, hnull.1 hj]
            rfl
          · -- both are read, and a value is put around each
            have hj' : j' ≠ .null := fun h => hj (hnull.2 h)
            have hmapped : Checked.under (.key k') ((value.read j').map some)
                = (Checked.under (.key k) ((value.read j).map some)).reissue f := by
              rw [Checked.under_map, Checked.under_map, Checked.reissue_map, hread]
            simpa only [hj, hj'] using hmapped

/-- A field that is found as before is read as before, if its issues are not affected. -/
theorem Schema.ReadAlike.same {β : Type} {f : Issue → Issue} {key : FieldKey} (value : Schema β)
    {ms ms' : List (String × Json)} (hfind : key.find? ms' = key.find? ms)
    (hf : ∀ k, key.Names k → ∀ i : Issue, f (i.under (.key k)) = i.under (.key k)) :
    value.ReadAlike f key ms ms' := by
  cases hms : key.find? ms with
  | none => exact .absent hms (hfind.trans hms) (hf key.camel (.inl rfl) (.here .missing))
  | some found =>
      obtain ⟨k, j⟩ := found
      have hk : key.Names k := (FieldKey.find?_eq_some hms).1
      exact .found hms (hfind.trans hms) Iff.rfl (Checked.reissue_under_eq (hf k hk) _).symm

/-- A field that is found alike is read alike. -/
theorem FieldKey.FoundAlike.readAlike {β : Type} {old new : String} {key : FieldKey}
    {ms ms' : List (String × Json)} (h : key.FoundAlike old new ms ms') (value : Schema β) :
    value.ReadAlike (Issue.respell old new []) key ms ms' := by
  cases h with
  | kept hfind hold =>
      exact .same value hfind fun k hk => Issue.respell_key_of_ne fun heq => hold (heq ▸ hk)
  | moved hfind hfind' =>
      refine .found hfind hfind' Iff.rfl ?_
      rw [Checked.reissue_under (g := id) Issue.respell_key, Checked.reissue_id]

/-- The alternative with a tag is the one that is read. -/
theorem Variants.read_of_mem {β : Type} {tag : String} {value : Schema β} :
    ∀ {α : Type} (vs : Variants α), vs.tags.Nodup → (tag, ⟨β, value⟩) ∈ vs.entries →
      ∃ wrap : β → α, ∀ j, vs.read tag j = some (.map wrap (.under (.tag tag) (value.read j)))
  | _, .last t v, _, hmem => by
      cases List.mem_singleton.1 hmem
      refine ⟨id, fun j => ?_⟩
      unfold Variants.read
      rw [if_pos rfl]
      cases value.read j <;> rfl
  | _, .more t v rest, hnodup, hmem => by
      obtain ⟨hnew, htags⟩ := List.nodup_cons.1 hnodup
      rcases List.mem_cons.1 hmem with heq | hmem
      · cases heq
        refine ⟨.inl, fun j => ?_⟩
        unfold Variants.read
        rw [if_pos rfl, Checked.under_map]
      · obtain ⟨wrap, hread⟩ := rest.read_of_mem htags hmem
        have hne : t ≠ tag := by
          rintro rfl
          exact hnew (rest.map_entries ▸ List.mem_map_of_mem hmem)
        refine ⟨fun b => .inr (wrap b), fun j => ?_⟩
        unfold Variants.read
        rw [if_neg hne, hread j]
        cases value.read j <;> rfl

/-- The alternative that the tag of data names is read. -/
theorem Schema.read_union {α : Type} {vs : Variants α} {tag : String} {j : Json}
    {result : Checked α} (hkind : j.member? "kind" = some (.text tag))
    (hread : vs.read tag j = some result) : (Schema.union vs).read j = result := by
  cases j with
  | object ms =>
      replace hkind : ms.lookup "kind" = some (.text tag) := hkind
      unfold Schema.read
      simp only [hkind, hread]
  | _ => cases hkind

/-- What tells all fields apart tells apart what is in them. -/
theorem Fields.unambiguous_of_mem :
    ∀ {α : Type} (fs : Fields α), fs.unambiguous → ∀ e ∈ fs.entries, e.2.2.unambiguous
  | _, .nil, _ => nofun
  | _, .required _ _ rest, h | _, .defaulted _ _ _ rest, h | _, .optional _ _ rest, h => by
      obtain ⟨hvalue, hrest⟩ := Bool.and_eq_true_iff.1 h
      exact List.forall_mem_cons.2 ⟨hvalue, rest.unambiguous_of_mem hrest⟩

/-- Every alternative carries its tag, and what is in it is told apart. -/
theorem Variants.unambiguous_of_mem :
    ∀ {α : Type} (vs : Variants α), vs.unambiguous →
      ∀ e ∈ vs.entries, e.2.2.tag? = some e.1 ∧ e.2.2.unambiguous
  | _, .last _ _, h => by
      obtain ⟨htag, hvalue⟩ := Bool.and_eq_true_iff.1 h
      exact List.forall_mem_singleton.2 ⟨of_decide_eq_true htag, hvalue⟩
  | _, .more _ _ rest, h => by
      obtain ⟨hhead, hrest⟩ := Bool.and_eq_true_iff.1 h
      obtain ⟨htag, hvalue⟩ := Bool.and_eq_true_iff.1 hhead
      exact List.forall_mem_cons.2
        ⟨⟨of_decide_eq_true htag, hvalue⟩, rest.unambiguous_of_mem hrest⟩

/-- The entry of a tag is the first one of its record, and a choice. -/
theorem Fields.entries_of_tag? {t : String} :
    ∀ {α : Type} (fs : Fields α), fs.tag? = some t →
      ∃ (β : Type) (form : ChoiceForm) (options : Choice β)
        (rest : List (FieldKey × (β : Type) × Schema β)),
        fs.entries = (.same "kind", ⟨β, .choice form options⟩) :: rest
  | _, .defaulted key (.choice form options) _ rest, h => by
      replace h : (if key = .same "kind" then options.only? else none) = some t := h
      split at h
      next hkey =>
        subst hkey
        exact ⟨_, form, options, rest.entries, rfl⟩
      next => cases h

namespace Schema.ChangedAt

variable {change : ObjectChange} {old new : String} {α : Type} {s : Schema α}
  {place : List PathStep} {j j' : Json}

/-- **The tag stays** in data that carries one. -/
theorem member?_kind (hchange : Harmless change old new) {t : String}
    (h : s.ChangedAt change place j j') :
    s.unambiguous → s.tag? = some t → j'.member? "kind" = j.member? "kind" := by
  induction h with
  | @here α form name fields ms ms' hobject =>
      intro hs htag
      obtain ⟨β, choice, options, rest, hentries⟩ := fields.entries_of_tag? htag
      have hkey : FieldKey.same "kind" ∈ fields.keys := by
        rw [← fields.map_entries, hentries]
        exact List.mem_cons_self
      have hapart := of_decide_eq_true (Bool.and_eq_true_iff.1 hs).1
      have hvalue := (hchange _ _ _ hapart hobject _ hkey).value_eq
      rwa [FieldKey.value_same, FieldKey.value_same] at hvalue
  | @field α β form name fields key value ms ms' k j j' place hentry hfind hlookup hsame hvalue =>
      intro hs htag
      obtain ⟨γ, choice, options, rest, hentries⟩ := fields.entries_of_tag? htag
      have hapart : fields.keys.Pairwise FieldKey.Apart :=
        of_decide_eq_true (Bool.and_eq_true_iff.1 hs).1
      rw [← fields.map_entries, hentries] at hapart
      rw [hentries] at hentry
      rcases List.mem_cons.1 hentry with heq | hrest
      · -- nothing can change inside a name
        cases heq
        cases hvalue
      · have hnames : ¬ key.Names "kind" :=
          ((List.pairwise_cons.1 hapart).1 key (List.mem_map_of_mem hrest)).not_names (.inl rfl)
        have hk : key.Names k := (FieldKey.find?_eq_some hfind).1
        exact hsame.lookup_eq fun heq => hnames (heq ▸ hk)
  | item => exact fun _ => nofun
  | alternative => exact fun _ => nofun
  | refined _ ih => exact ih

/-- **A change that does not show in how fields are found** shows in the keys of paths only. -/
theorem read (hchange : Harmless change old new) (h : s.ChangedAt change place j j') :
    s.unambiguous → s.read j' = (s.read j).reissue (Issue.respell old new place) := by
  induction h with
  | @here α form name fields ms ms' hobject =>
      -- all fields are read from the changed object itself
      intro hs
      have hapart := of_decide_eq_true (Bool.and_eq_true_iff.1 hs).1
      refine fields.read_reissue fun e he => ?_
      have hkey : e.1 ∈ fields.keys := fields.map_entries ▸ List.mem_map_of_mem he
      exact (hchange _ _ _ hapart hobject _ hkey).readAlike e.2.2
  | @field α β form name fields key value ms ms' k j j' place hentry hfind hlookup hsame hvalue
      ih =>
      intro hs
      obtain ⟨hapart, hfields⟩ := Bool.and_eq_true_iff.1 hs
      have hk : key.Names k := (FieldKey.find?_eq_some hfind).1
      refine fields.read_reissue fun e he => ?_
      by_cases heq : e = (key, ⟨β, value⟩)
      · subst heq
        refine .found hfind (FieldKey.find?_of_sameExcept hfind hlookup hsame) ?_ ?_
        · exact iff_of_false hvalue.ne_null.1 hvalue.ne_null.2
        · rw [ih (fields.unambiguous_of_mem hfields _ hentry),
            Checked.reissue_under (Issue.respell_under (.key k) place)]
      · -- the other fields have other keys
        have hother : ∀ l, e.1.Names l → l ≠ k := by
          have hapart := of_decide_eq_true hapart
          rw [← fields.map_entries, List.pairwise_map] at hapart
          rintro l hl rfl
          exact (hapart.forall he hentry heq).not_names hl hk
        refine .same e.2.2 (FieldKey.find?_congr fun l hl => hsame.lookup_eq (hother l hl)) ?_
        intro l hl
        exact Issue.respell_under_of_ne (fun h => hother l hl (PathStep.key.inj h)) place
  | item before after hitem ih =>
      intro hs
      have hcollect := Checked.collect_reissue (ih hs) before after 0
      rwa [Nat.zero_add] at hcollect
  | @alternative α β variants tag value j j' place hentry htag hvalue ih =>
      intro hs
      obtain ⟨htags, hvariants⟩ := Bool.and_eq_true_iff.1 hs
      obtain ⟨hkind, hunambiguous⟩ := variants.unambiguous_of_mem hvariants _ hentry
      obtain ⟨wrap, hread⟩ := variants.read_of_mem (of_decide_eq_true htags) hentry
      -- the tag is a recognised key of the alternative, so the same one is read again
      have htag' := (hvalue.member?_kind hchange hunambiguous hkind).trans htag
      rw [Schema.read_union htag (hread j), Schema.read_union htag' (hread j'), ih hunambiguous,
        Checked.reissue_map, Checked.reissue_under (Issue.respell_under (.tag tag) place)]
  | @refined α β base make parts make_parts j j' place hbase ih =>
      intro hs
      unfold Schema.read
      rw [ih hs]
      cases base.read j with
      | ok b =>
          -- the check of the refinement has its issues at the place itself
          exact (Checked.reissue_ofExcept (Issue.respell_here place) (make b)).symm
      | error issues => rfl

end Schema.ChangedAt

/-! ## §6. All classes. -/

/-- Data for a class that reads alike up to a new spelling is validated alike up to it. -/
theorem DataClass.validate_changedAt {c : DataClass} {old new : String} {place : List PathStep}
    {j j' : Json} {change : ObjectChange} (hchange : Harmless change old new)
    (h : c.form.2.ChangedAt change place j j') :
    Datum.validate c j' = (Datum.validate c j).mapError (Rejection.respell old new place) := by
  obtain ⟨wrap, hread⟩ := Datum.read_eq c
  unfold Datum.validate
  rw [hread, hread, h.read hchange c.unambiguous_form]
  cases c.form.2.read j <;> rfl

@[simp] theorem Rejection.respell_self (s : String) (place : List PathStep) :
    Rejection.respell s s place = id := by
  funext r
  unfold respell
  rw [Issue.respell_self, List.map_id]
  rfl

/-- **Validation depends on recognised keys only, in either spelling.**  Somewhere in the data for a
class, in an object that is read as a record:

  • a new spelling of a key gives the same instance or the same issues, with the key in its new
    spelling in their paths,
  • behind a camel-case key nothing that happens to the plain one counts,
  • a key that no field has does not count. -/
theorem validate_sees_recognised_keys (c : DataClass) (place : List PathStep) (j j' : Json) :
    (∀ old new, c.form.2.ChangedAt (Respelt old new) place j j' →
      Datum.validate c j' = (Datum.validate c j).mapError (Rejection.respell old new place))
    ∧ (c.form.2.ChangedAt Shadowed place j j' → Datum.validate c j' = Datum.validate c j)
    ∧ (c.form.2.ChangedAt Unrecognised place j j' → Datum.validate c j' = Datum.validate c j) := by
  have hsame : ∀ x : Except Rejection Datum, x.mapError (Rejection.respell "" "" place) = x := by
    intro x
    rw [Rejection.respell_self]
    cases x <;> rfl
  refine ⟨fun old new h => ?_, fun h => ?_, fun h => ?_⟩
  · exact DataClass.validate_changedAt (harmless_respelt old new) h
  · rw [DataClass.validate_changedAt (harmless_shadowed "") h, hsame]
  · rw [DataClass.validate_changedAt (harmless_unrecognised "") h, hsame]

/-- Members that a class of elements with a keyword has, and one more. -/
def sectionOf (keyword key : String) (j : Json) : Json :=
  .object
    [ ("location", .object [("line", .int 1), ("column", .int 1)]), ("keyword", .text keyword),
      ("name", .text ""), (key, j) ]

/-- Data for a child with a scenario that has one section of examples with these members. -/
def scenarioChildOf (examples : List (String × Json)) : Json :=
  .object
    [ ("kind", .text "scenario"),
      ("scenario", sectionOf "Scenario" "examples" (.array [.object examples])) ]

/-- Data for a feature with one scenario that has one section of examples with these members. -/
def featureOf (examples : List (String × Json)) : Json :=
  sectionOf "Feature" "children" (.array [scenarioChildOf examples])

/-- The way from a feature to its one section of examples. -/
def examplesPlace : List PathStep :=
  [.key "children", .index 0, .tag "scenario", .key "scenario", .key "examples", .index 0]

/-- A change of the section is a change of the feature. -/
theorem featureOf_changedAt {change : ObjectChange} {ms ms' : List (String × Json)}
    (h : Examples.schema.ChangedAt change [] (.object ms) (.object ms')) :
    (DataClass.element .feature).form.2.ChangedAt change examplesPlace (featureOf ms)
      (featureOf ms') := by
  have hscenario : Scenario.schema.ChangedAt change [.key "examples", .index 0]
      (sectionOf "Scenario" "examples" (.array [.object ms]))
      (sectionOf "Scenario" "examples" (.array [.object ms'])) :=
    .refined (.field (.tail _ (.tail _ (.tail _ (.tail _ (.tail _ (.tail _ (.head _))))))) rfl rfl
      (.set "examples" _ _ [_, _, _] []) (.item [] [] h))
  have hchild : Scenario.childSchema.ChangedAt change
      [.key "scenario", .key "examples", .index 0] (scenarioChildOf ms) (scenarioChildOf ms') :=
    .refined (.field (.tail _ (.head _)) rfl rfl (.set "scenario" _ _ [_] []) hscenario)
  exact .refined (.field (.tail _ (.tail _ (.tail _ (.tail _ (.tail _ (.tail _ (.head _)))))))
    rfl rfl (.set "children" _ _ [_, _, _] [])
    (.item [] [] (.refined (.alternative (.tail _ (.head _)) rfl hchild))))

/-- The members of a section of examples, and two more. -/
def examplesWith (before after : List (String × Json)) : List (String × Json) :=
  [ ("location", .object [("line", .int 1), ("column", .int 1)]), ("keyword", .text "Examples"),
    ("name", .text "") ] ++ before ++ after

/-- A row that is none is told of under either spelling; a text in the place of the rows counts
neither behind the camel-case key nor under a key that is spelled otherwise. -/
theorem validate_sees_tableBody :
    Datum.validate (.element .feature)
        (featureOf (examplesWith [] [("tableBody", .array [.null])]))
      = .error ⟨"Feature", [⟨examplesPlace ++ [.key "tableBody", .index 0],
          .notRecord .model "TableRow"⟩]⟩
    ∧ Datum.validate (.element .feature)
        (featureOf (examplesWith [("table_body", .text "none")] [("tableBody", .array [])]))
      = Datum.validate (.element .feature) (featureOf (examplesWith [] [("tableBody", .array [])]))
    ∧ Datum.validate (.element .feature)
        (featureOf (examplesWith [("table-body", .text "none")] []))
      = Datum.validate (.element .feature) (featureOf (examplesWith [] [])) := by
  have hkey : (⟨"table_body", "tableBody"⟩ : FieldKey) ∈ Examples.schema.keysAt [] := by decide
  refine ⟨?_, ?_, ?_⟩
  · have hold : Datum.validate (.element .feature)
        (featureOf (examplesWith [] [("table_body", .array [.null])]))
          = .error ⟨"Feature", [⟨examplesPlace ++ [.key "table_body", .index 0],
              .notRecord .model "TableRow"⟩]⟩ := rfl
    have hspelling : Respelt "table_body" "tableBody" (Examples.schema.keysAt [])
        (examplesWith [] [("table_body", .array [.null])])
        (examplesWith [] [("tableBody", .array [.null])]) :=
      .replace hkey (by decide) (.inl ⟨rfl, rfl⟩) (.array [.null]) (examplesWith [] []) []
        (by decide) (by decide)
    rw [(validate_sees_recognised_keys (.element .feature) examplesPlace _ _).1 _ _
      (featureOf_changedAt (.refined (.here hspelling))), hold]
    rfl
  · refine ((validate_sees_recognised_keys (.element .feature) examplesPlace _ _).2.1
      (featureOf_changedAt (.refined (.here ⟨_, hkey, by decide, rfl, ?_⟩)))).symm
    exact .erase "table_body" (.text "none") (examplesWith [] []) [("tableBody", .array [])]
  · refine ((validate_sees_recognised_keys (.element .feature) examplesPlace _ _).2.2
      (featureOf_changedAt (.refined (.here ⟨"table-body", by decide, ?_⟩)))).symm
    exact .erase "table-body" (.text "none") (examplesWith [] []) []

end Gherkin
