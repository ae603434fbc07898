/-
  Gherkin.Proofs.RoundTrip
  ────────────────────────
  **WHAT IS WRITTEN READS BACK AS ITSELF.**

  Reading and writing follow the same schema, so the round trip is one
  induction over schemas.  It needs two things of a schema, and both can be
  computed (`Schema.unambiguous`): no spelling of a key belongs to two fields
  of a record, and the alternatives of a union carry different tags.

    • `FieldKey.find?_written` — a written field is found under its key,
    • `Schema.write_tagged`    — a tag is among the members that are written,
    • `Schema.read_write`      — the round trip for one schema,
    • `validate_write`         — the round trip for instances of all classes.

  Which spelling keys have, and whether fields without a value are left out,
  does not matter.
-/
import Gherkin.Document.Element

namespace Gherkin

/-! ## §1. Keys. -/

namespace FieldKey

/-- Whether a key can be spelled in the given way. -/
def Names (k : FieldKey) (s : String) : Prop := s = k.camel ∨ s = k.plain

/-- Whether two keys have no spelling in common. -/
def Apart (k l : FieldKey) : Prop :=
  (k.camel ≠ l.camel ∧ k.camel ≠ l.plain) ∧ k.plain ≠ l.camel ∧ k.plain ≠ l.plain

instance (k l : FieldKey) : Decidable (k.Apart l) := by
  unfold Apart
  infer_instance

theorem Apart.not_names {k l : FieldKey} (h : k.Apart l) {s : String} (hk : k.Names s) :
    ¬ l.Names s := by
  obtain ⟨⟨hcc, hcp⟩, hpc, hpp⟩ := h
  rcases hk with rfl | rfl
  · exact fun hl => hl.elim hcc hcp
  · exact fun hl => hl.elim hpc hpp

theorem Apart.symm {k l : FieldKey} (h : k.Apart l) : l.Apart k := by
  obtain ⟨⟨hcc, hcp⟩, hpc, hpp⟩ := h
  exact ⟨⟨hcc.symm, hpc.symm⟩, hcp.symm, hpp.symm⟩

theorem names_spelling (style : WriteStyle) (k : FieldKey) : k.Names (k.spelling style) := by
  unfold spelling
  split
  · exact .inl rfl
  · exact .inr rfl

theorem lookup_eq_none {s : String} {members : List (String × Json)}
    (h : ∀ m ∈ members, m.1 ≠ s) : members.lookup s = none := by
  rw [List.lookup_eq_none_iff]
  intro m hm
  simpa using (h m hm).symm

/-- Members that a key does not name hold nothing for it. -/
theorem find?_eq_none {k : FieldKey} {members : List (String × Json)}
    (h : ∀ m ∈ members, ¬ k.Names m.1) : k.find? members = none := by
  have hcamel : members.lookup k.camel = none :=
    lookup_eq_none fun m hm heq => h m hm (.inl heq)
  have hplain : members.lookup k.plain = none :=
    lookup_eq_none fun m hm heq => h m hm (.inr heq)
  unfold find?
  rw [hcamel, hplain]
  rfl

/-- **A written field is found** under its key, in the spelling in which it was written. -/
theorem find?_written {k : FieldKey} {before after : List (String × Json)}
    (hbefore : ∀ m ∈ before, ¬ k.Names m.1) (hafter : ∀ m ∈ after, ¬ k.Names m.1)
    (style : WriteStyle) (j : Json) :
    k.find? (before ++ (k.spelling style, j) :: after) = some (k.spelling style, j) := by
  have hskip : ∀ s, k.Names s →
      (before ++ (k.spelling style, j) :: after).lookup s
        = ((k.spelling style, j) :: after).lookup s := by
    intro s hs
    rw [List.lookup_append, lookup_eq_none fun m hm heq => hbefore m hm (heq ▸ hs)]
    rfl
  have hnone : ∀ s, k.Names s → after.lookup s = none := fun s hs =>
    lookup_eq_none fun m hm heq => hafter m hm (heq ▸ hs)
  unfold find?
  rw [hskip _ (.inl rfl), hskip _ (.inr rfl)]
  by_cases hcamel : k.spelling style = k.camel
  · rw [hcamel, List.lookup_cons_self]
  · -- the other spelling wins if it is there, but it is not
    have hplain : k.spelling style = k.plain := (names_spelling style k).resolve_left hcamel
    have hfirst : ((k.spelling style, j) :: after).lookup k.camel = none := by
      have hne : (k.camel == k.spelling style) = false := by simpa using Ne.symm hcamel
      rw [List.lookup_cons, hne]
      exact hnone _ (.inl rfl)
    rw [hfirst, hplain, List.lookup_cons_self]
    rfl

end FieldKey

/-! ## §2. Schemas that tell everything apart. -/

namespace Fields

/-- The keys of a record, in their fixed order. -/
def keys {α : Type} : Fields α → List FieldKey
  | .nil => []
  | .required key _ rest => key :: rest.keys
  | .defaulted key _ _ rest => key :: rest.keys
  | .optional key _ rest => key :: rest.keys

/-- Every member that is written has the name of a key. -/
theorem names_write {α : Type} (style : WriteStyle) :
    ∀ (fs : Fields α) (a : α), ∀ m ∈ fs.write style a, ∃ k ∈ fs.keys, k.Names m.1
  | .nil, _, m, hm => by cases hm
  | .required key value rest, a, m, hm => by
      rcases List.mem_cons.1 hm with rfl | hm
      · exact ⟨key, List.mem_cons_self, key.names_spelling style⟩
      · obtain ⟨k, hk, hname⟩ := names_write style rest a.2 m hm
        exact ⟨k, List.mem_cons_of_mem _ hk, hname⟩
  | .defaulted key value absent rest, a, m, hm => by
      rcases List.mem_cons.1 hm with rfl | hm
      · exact ⟨key, List.mem_cons_self, key.names_spelling style⟩
      · obtain ⟨k, hk, hname⟩ := names_write style rest a.2 m hm
        exact ⟨k, List.mem_cons_of_mem _ hk, hname⟩
  | .optional key value rest, (o, b), m, hm => by
      have hrest : m.1 = key.spelling style ∨ m ∈ rest.write style b := by
        cases o with
        | some x =>
            rcases List.mem_cons.1 hm with rfl | hm
            · exact .inl rfl
            · exact .inr hm
        | none =>
            replace hm : m ∈ if style.dropNull then rest.write style b
              else (key.spelling style, .null) :: rest.write style b := hm
            split at hm
            · exact .inr hm
            · rcases List.mem_cons.1 hm with rfl | hm
              · exact .inl rfl
              · exact .inr hm
      rcases hrest with hname | hm
      · exact ⟨key, List.mem_cons_self, hname ▸ key.names_spelling style⟩
      · obtain ⟨k, hk, hname⟩ := names_write style rest b m hm
        exact ⟨k, List.mem_cons_of_mem _ hk, hname⟩

/-- A key apart from all keys of a record names nothing that is written for it. -/
theorem not_names_write {α : Type} {fs : Fields α} {key : FieldKey}
    (h : ∀ k ∈ fs.keys, key.Apart k) (style : WriteStyle) (a : α) :
    ∀ m ∈ fs.write style a, ¬ key.Names m.1 := by
  intro m hm
  obtain ⟨k, hk, hname⟩ := names_write style fs a m hm
  exact (h k hk).symm.not_names hname

/-- One more field in front: it is found, and the others are read behind it. -/
theorem read_behind {α : Type} {fs : Fields α} {key : FieldKey} {before : List (String × Json)}
    (hkey : ∀ k ∈ fs.keys, key.Apart k)
    (hbefore : ∀ m ∈ before, ∀ k ∈ key :: fs.keys, ¬ k.Names m.1) {style : WriteStyle} {a : α}
    (hread : ∀ front : List (String × Json), (∀ m ∈ front, ∀ k ∈ fs.keys, ¬ k.Names m.1) →
      fs.read (front ++ fs.write style a) = .ok a) (j : Json) :
    key.find? (before ++ (key.spelling style, j) :: fs.write style a)
        = some (key.spelling style, j)
      ∧ fs.read (before ++ (key.spelling style, j) :: fs.write style a) = .ok a := by
  refine ⟨FieldKey.find?_written (fun m hm => hbefore m hm key List.mem_cons_self)
    (not_names_write hkey style a) style j, ?_⟩
  rw [List.append_cons]
  apply hread
  intro m hm k hk
  rcases List.mem_append.1 hm with hm | hm
  · exact hbefore m hm k (List.mem_cons_of_mem _ hk)
  · rw [List.mem_singleton.1 hm]
    exact (hkey k hk).not_names (key.names_spelling style)

end Fields

/-- The name that a choice leaves no choice about. -/
def Choice.only? {α : Type} (c : Choice α) : Option String :=
  match c.names with
  | [name] => some name
  | _ => none

theorem Choice.name_of_only? {α : Type} {c : Choice α} {s : String} (h : c.only? = some s)
    (a : α) : c.name a = s := by
  have hmem : c.name a ∈ c.names := List.mem_map_of_mem (List.mem_of_find?_eq_some (c.find_name a))
  unfold only? at h
  split at h
  next name hnames =>
    cases h
    rw [hnames] at hmem
    exact List.mem_singleton.1 hmem
  next => cases h

/-- The tag that all objects of a record carry under `kind`, if it is their first field. -/
def Fields.tag? {α : Type} : Fields α → Option String
  | .defaulted key (.choice _ options) _ _ =>
    if key = .same "kind" then options.only? else none
  | _ => none

/-- The tag that all objects of a schema carry. -/
def Schema.tag? {α : Type} : Schema α → Option String
  | .record _ _ fields => fields.tag?
  | .refine base _ _ _ => base.tag?
  | _ => none

mutual

/-- Whether the keys of every record and the tags of every union are told apart. -/
def Schema.unambiguous {α : Type} : Schema α → Bool
  | .list _ item => item.unambiguous
  | .record _ _ fields => decide (fields.keys.Pairwise FieldKey.Apart) && fields.unambiguous
  | .union variants => decide variants.tags.Nodup && variants.unambiguous
  | .refine base _ _ _ => base.unambiguous
  | _ => true

/-- Whether the schemas of all fields tell everything apart. -/
def Fields.unambiguous {α : Type} : Fields α → Bool
  | .nil => true
  | .required _ value rest => value.unambiguous && rest.unambiguous
  | .defaulted _ value _ rest => value.unambiguous && rest.unambiguous
  | .optional _ value rest => value.unambiguous && rest.unambiguous

/-- Whether all alternatives carry their tags, and their schemas tell everything apart. -/
def Variants.unambiguous {α : Type} : Variants α → Bool
  | .last tag value => decide (value.tag? = some tag) && value.unambiguous
  | .more tag value rest =>
    decide (value.tag? = some tag) && value.unambiguous && rest.unambiguous

end

/-! ## §3. What is written. -/

/-- **A tag is among the members** that are written. -/
theorem Schema.write_tagged {t : String} (style : WriteStyle) :
    ∀ {α : Type} (s : Schema α), s.tag? = some t → ∀ a : α,
      ∃ members, s.write style a = .object members ∧ members.lookup "kind" = some (.text t)
  | _, .record _ _ (.defaulted key (.choice _ options) _ rest), h, a => by
      replace h : (if key = .same "kind" then options.only? else none) = some t := h
      split at h
      next hkey =>
        subst hkey
        refine ⟨_, rfl, ?_⟩
        show List.lookup "kind" (((FieldKey.same "kind").spelling style,
          Json.text (options.name a.1)) :: rest.write style a.2) = _
        have hspelling : (FieldKey.same "kind").spelling style = "kind" :=
          ((FieldKey.same "kind").names_spelling style).elim id id
        rw [hspelling, options.name_of_only? h, List.lookup_cons_self]
      next => cases h
  | _, .refine base _ parts _, h, a => write_tagged style base h (parts a)

mutual

/-- Only a field without a value is written as null. -/
theorem Schema.write_ne_null (style : WriteStyle) :
    ∀ {α : Type} (s : Schema α) (a : α), s.write style a ≠ .null
  | _, .integer, _ | _, .position, _ | _, .text, _ | _, .choice _ _, _ | _, .list _ _, _
  | _, .record _ _ _, _ => nofun
  | _, .union variants, a => Variants.write_ne_null style variants a
  | _, .refine base _ parts _, a => Schema.write_ne_null style base (parts a)

/-- No alternative is written as null. -/
theorem Variants.write_ne_null (style : WriteStyle) :
    ∀ {α : Type} (vs : Variants α) (a : α), vs.write style a ≠ .null
  | _, .last _ value, a => Schema.write_ne_null style value a
  | _, .more _ value _, .inl x => Schema.write_ne_null style value x
  | _, .more _ _ rest, .inr y => Variants.write_ne_null style rest y

end

/-! ## §4. Reading it back. -/

mutual

/-- **A value reads back as itself**, in whatever style it was written. -/
theorem Schema.read_write (style : WriteStyle) :
    ∀ {α : Type} (s : Schema α), s.unambiguous → ∀ a : α, s.read (s.write style a) = .ok a
  | _, .integer, _, a => rfl
  | _, .position, _, a => by
      show Checked.ofExcept (Gherkin.position (positionValue a)) = _
      rw [position_positionValue]
      rfl
  | _, .text, _, a => rfl
  | _, .choice form options, _, a => by
      show options.read form (.text (options.name a)) = _
      unfold Choice.read
      simp only [options.ofName?_name]
  | _, .list form item, h, as =>
      Checked.collect_map (fun a => Schema.read_write style item h a) as 0
  | _, .record form name fields, h, a => by
      obtain ⟨hapart, hfields⟩ := Bool.and_eq_true_iff.1 h
      exact Fields.read_write style fields hfields (of_decide_eq_true hapart) [] (by simp) a
  | _, .union variants, h, a => by
      obtain ⟨htags, hvariants⟩ := Bool.and_eq_true_iff.1 h
      obtain ⟨tag, -, members, hwrite, hkind, hread⟩ :=
        Variants.read_write style variants hvariants (of_decide_eq_true htags) a
      show Schema.read (.union variants) (variants.write style a) = _
      rw [hwrite] at hread ⊢
      simp only [Schema.read, hkind, hread]
  | _, .refine base make parts make_parts, h, a => by
      show (match base.read (base.write style (parts a)) with
        | .ok b => Checked.ofExcept (make b)
        | .error issues => .error issues) = _
      rw [Schema.read_write style base h (parts a)]
      show Checked.ofExcept (make (parts a)) = _
      rw [make_parts]
      rfl

/-- The fields of a record read back as themselves, behind members that none of them names. -/
theorem Fields.read_write (style : WriteStyle) :
    ∀ {α : Type} (fs : Fields α), fs.unambiguous → fs.keys.Pairwise FieldKey.Apart →
      ∀ before : List (String × Json), (∀ m ∈ before, ∀ k ∈ fs.keys, ¬ k.Names m.1) →
        ∀ a : α, fs.read (before ++ fs.write style a) = .ok a
  | _, .nil, _, _, _, _, _ => rfl
  | _, .required key value rest, h, hapart, before, hbefore, (x, b) => by
      obtain ⟨hvalue, hrest⟩ := Bool.and_eq_true_iff.1 h
      obtain ⟨hkey, hkeys⟩ := List.pairwise_cons.1 hapart
      obtain ⟨hfound, hothers⟩ := Fields.read_behind hkey hbefore
        (fun front hfront => Fields.read_write style rest hrest hkeys front hfront b)
        (value.write style x)
      have hfirst := Schema.read_write style value hvalue x
      simp only [Fields.write, Fields.read, hfound, hothers, hfirst]
      rfl
  | _, .defaulted key value absent rest, h, hapart, before, hbefore, (x, b) => by
      obtain ⟨hvalue, hrest⟩ := Bool.and_eq_true_iff.1 h
      obtain ⟨hkey, hkeys⟩ := List.pairwise_cons.1 hapart
      obtain ⟨hfound, hothers⟩ := Fields.read_behind hkey hbefore
        (fun front hfront => Fields.read_write style rest hrest hkeys front hfront b)
        (value.write style x)
      have hfirst := Schema.read_write style value hvalue x
      simp only [Fields.write, Fields.read, hfound, hothers, hfirst]
      rfl
  | _, .optional key value rest, h, hapart, before, hbefore, (some x, b) => by
      obtain ⟨hvalue, hrest⟩ := Bool.and_eq_true_iff.1 h
      obtain ⟨hkey, hkeys⟩ := List.pairwise_cons.1 hapart
      obtain ⟨hfound, hothers⟩ := Fields.read_behind hkey hbefore
        (fun front hfront => Fields.read_write style rest hrest hkeys front hfront b)
        (value.write style x)
      have hfirst := Schema.read_write style value hvalue x
      -- null would be read as no value, but no value is written as null
      have hnull := Schema.write_ne_null style value x
      simp only [Fields.write, Fields.read, hfound, hothers, hfirst]
      rfl
  | _, .optional key value rest, h, hapart, before, hbefore, (none, b) => by
      obtain ⟨-, hrest⟩ := Bool.and_eq_true_iff.1 h
      obtain ⟨hkey, hkeys⟩ := List.pairwise_cons.1 hapart
      by_cases hdrop : style.dropNull = true
      · -- the field is left out, and no other member is taken for it
        have hfound : key.find? (before ++ rest.write style b) = none := by
          apply FieldKey.find?_eq_none
          intro m hm
          rcases List.mem_append.1 hm with hm | hm
          · exact hbefore m hm key List.mem_cons_self
          · exact Fields.not_names_write hkey style b m hm
        have hothers := Fields.read_write style rest hrest hkeys before
          (fun m hm k hk => hbefore m hm k (List.mem_cons_of_mem _ hk)) b
        simp only [Fields.write, Fields.read, if_pos hdrop, hfound, hothers]
        rfl
      · obtain ⟨hfound, hothers⟩ := Fields.read_behind hkey hbefore
          (fun front hfront => Fields.read_write style rest hrest hkeys front hfront b) .null
        simp only [Fields.write, Fields.read, if_neg hdrop, hfound, hothers]
        rfl

/-- An alternative reads back under its tag. -/
theorem Variants.read_write (style : WriteStyle) :
    ∀ {α : Type} (vs : Variants α), vs.unambiguous → vs.tags.Nodup → ∀ a : α,
      ∃ tag ∈ vs.tags, ∃ members, vs.write style a = .object members
        ∧ members.lookup "kind" = some (.text tag)
        ∧ vs.read tag (vs.write style a) = some (.ok a)
  | _, .last tag value, h, _, a => by
      obtain ⟨htag, hvalue⟩ := Bool.and_eq_true_iff.1 h
      obtain ⟨members, hwrite, hkind⟩ := value.write_tagged style (of_decide_eq_true htag) a
      refine ⟨tag, List.mem_cons_self, members, hwrite, hkind, ?_⟩
      simp only [Variants.write, Variants.read, if_pos, Schema.read_write style value hvalue a]
      rfl
  | _, .more tag value rest, h, _, .inl x => by
      obtain ⟨hhead, -⟩ := Bool.and_eq_true_iff.1 h
      obtain ⟨htag, hvalue⟩ := Bool.and_eq_true_iff.1 hhead
      obtain ⟨members, hwrite, hkind⟩ := value.write_tagged style (of_decide_eq_true htag) x
      refine ⟨tag, List.mem_cons_self, members, hwrite, hkind, ?_⟩
      simp only [Variants.write, Variants.read, if_pos, Schema.read_write style value hvalue x]
      rfl
  | _, .more tag value rest, h, hnodup, .inr y => by
      obtain ⟨-, hrest⟩ := Bool.and_eq_true_iff.1 h
      obtain ⟨hnew, htags⟩ := List.nodup_cons.1 hnodup
      obtain ⟨found, hfound, members, hwrite, hkind, hread⟩ :=
        Variants.read_write style rest hrest htags y
      refine ⟨found, List.mem_cons_of_mem _ hfound, members, hwrite, hkind, ?_⟩
      have hne : tag ≠ found := fun heq => hnew (heq ▸ hfound)
      simp only [Variants.write, Variants.read, if_neg hne, hread]
      rfl

end

/-! ## §5. All classes. -/

/-- The instance of a class of its own that a child of a feature is. -/
def FeatureChild.element : FeatureChild → Element
  | .background b => .backgroundChild b
  | .scenario s => .scenarioChild s
  | .rule r => .featureRuleChild r

/-- The instance of a class of its own that a child of a rule is. -/
def RuleChild.element : RuleChild → Element
  | .background b => .backgroundChild b
  | .scenario s => .scenarioChild s

/-- A child of a feature is written like the instance of its own class. -/
theorem FeatureChild.write_eq (style : WriteStyle) (c : FeatureChild) :
    FeatureChild.schema.write style c = c.element.write style := by
  cases c <;> rfl

/-- A child of a rule is written like the instance of its own class. -/
theorem RuleChild.write_eq (style : WriteStyle) (c : RuleChild) :
    RuleChild.schema.write style c = c.element.write style := by
  cases c <;> rfl

theorem Item.read_write (style : WriteStyle) (i : Item) :
    Item.schema.read (Item.schema.write style i) = .ok i :=
  Schema.read_write style _ (by decide) i

theorem Token.read_write (style : WriteStyle) (t : Token) :
    Token.schema.read (Token.schema.write style t) = .ok t :=
  Schema.read_write style _ (by decide) t

theorem Event.read_write (style : WriteStyle) (e : Event) :
    Event.schema.read (Event.schema.write style e) = .ok e :=
  Schema.read_write style _ (by decide) e

theorem Element.read_write (style : WriteStyle) (e : Element) :
    Element.read e.cls (e.write style) = .ok e := by
  cases e <;> simp only [Element.cls, Element.read, Element.write] <;>
    rw [Schema.read_write style _ (by decide)] <;> rfl

theorem Datum.read_write (style : WriteStyle) (d : Datum) :
    Datum.read d.cls (d.write style) = .ok d := by
  cases d with
  | item i => exact congrArg (Checked.map Datum.item) (Item.read_write .full i)
  | token t => exact congrArg (Checked.map Datum.token) (Token.read_write .full t)
  | event e => exact congrArg (Checked.map Datum.event) (Event.read_write style e)
  | element e => exact congrArg (Checked.map Datum.element) (Element.read_write style e)

/-- **An instance of any class is validated from its own data**, in all four styles of writing.
Items and tokens are written in one style when they stand alone; inside an event they are written
in its style, and that too reads back.  The children of features and rules come back in the
classes they had. -/
theorem validate_write (style : WriteStyle) :
    (∀ d : Datum, Datum.validate d.cls (d.write style) = .ok d)
      ∧ (∀ i : Item, Item.schema.read (Item.schema.write style i) = .ok i)
      ∧ (∀ t : Token, Token.schema.read (Token.schema.write style t) = .ok t)
      ∧ (∀ f : Feature, (Feature.schema.write style f).member? "children"
          = some (.array (f.children.map (FeatureChild.schema.write style))))
      ∧ (∀ r : Rule, (Rule.schema.write style r).member? "children"
          = some (.array (r.children.map (RuleChild.schema.write style))))
      ∧ (∀ c : FeatureChild, FeatureChild.schema.read (FeatureChild.schema.write style c) = .ok c
          ∧ Element.read c.element.cls (FeatureChild.schema.write style c) = .ok c.element)
      ∧ ∀ c : RuleChild, RuleChild.schema.read (RuleChild.schema.write style c) = .ok c
          ∧ Element.read c.element.cls (RuleChild.schema.write style c) = .ok c.element := by
  refine ⟨fun d => ?_, Item.read_write style, Token.read_write style, fun f => ?_, fun r => ?_,
    fun c => ⟨Schema.read_write style _ (by decide) c, ?_⟩,
    fun c => ⟨Schema.read_write style _ (by decide) c, ?_⟩⟩
  · unfold Datum.validate
    rw [Datum.read_write]
    rfl
  · obtain ⟨camelCase, dropNull⟩ := style
    cases camelCase <;> rfl
  · obtain ⟨camelCase, dropNull⟩ := style
    cases camelCase <;> rfl
  · rw [FeatureChild.write_eq, Element.read_write]
  · rw [RuleChild.write_eq, Element.read_write]

end Gherkin
