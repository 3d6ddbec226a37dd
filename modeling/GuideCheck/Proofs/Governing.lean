import GuideCheck.Proofs.Keys
import GuideCheck.Proofs.Pointers

set_option autoImplicit false

/-! # Which schema governs a part of a value

`Schema.Fails` says which keywords of a schema a value fails, each for itself. `Schema.Governs` says
which schema governs the part of a value at the end of a path: a member is governed by the schema of
its property, or by the schema for members that are not named, and an item by the schema for items.
A value of a wrong type has no governed parts, and neither has a member that `additionalProperties`
refuses: there the keyword of the object fails.

A check reports what fails at the governed parts and nothing else (`Schema.mem_failures_iff`); of a
value of a wrong type only the type is reported. One step of a path decides for the whole path: what
a schema reports is what it reports of the value itself, and what the schemas of its parts report of
these (`Schema.mem_failures_iff_isOfPart`). -/

namespace GuideCheck.Schema

/-! ## Keywords that fail -/

/-- Whether a keyword of a schema fails at a value. -/
inductive Fails : Schema → Json → Cause → Prop
  | nothing {value : Json} : Fails (.always false) value .nothing
  | type {r : SchemaRules Schema} {value : Json} (listed : r.types ≠ [])
      (others : ∀ t ∈ r.types, ¬ value.HasType t.name) : Fails (.rules r) value (.type r.types)
  | required {r : SchemaRules Schema} {members : List (String × Json)} {name : String}
      (listed : name ∈ r.required) (absent : name ∉ members.map Prod.fst) :
      Fails (.rules r) (.obj members) (.required name)
  | additionalProperty {r : SchemaRules Schema} {members : List (String × Json)} {key : String}
      (refused : r.additional = some (.always false)) (present : key ∈ members.map Prod.fst)
      (unnamed : key ∉ r.properties.map Prod.fst) :
      Fails (.rules r) (.obj members) (.additionalProperty key)
  | maxItems {r : SchemaRules Schema} {items : List Json} {limit : Nat}
      (given : r.maxItems = some limit) (exceeded : limit < items.length) :
      Fails (.rules r) (.arr items) (.maxItems limit)
  | minItems {r : SchemaRules Schema} {items : List Json} {limit : Nat}
      (given : r.minItems = some limit) (missed : items.length < limit) :
      Fails (.rules r) (.arr items) (.minItems limit)
  | maxLength {r : SchemaRules Schema} {text : String} {limit : Nat}
      (given : r.maxLength = some limit) (exceeded : limit < text.length) :
      Fails (.rules r) (.str text) (.maxLength limit)
  | minLength {r : SchemaRules Schema} {text : String} {limit : Nat}
      (given : r.minLength = some limit) (missed : text.length < limit) :
      Fails (.rules r) (.str text) (.minLength limit)
  | pattern {r : SchemaRules Schema} {text : String} {p : WrittenPattern}
      (given : r.pattern = some p) (unmatched : p.isMatch text = false) :
      Fails (.rules r) (.str text) (.pattern p.source)
  | maximum {r : SchemaRules Schema} {n limit : Number} (given : r.maximum = some limit)
      (exceeded : limit.toDouble < n.toDouble) : Fails (.rules r) (.num n) (.maximum limit)
  | minimum {r : SchemaRules Schema} {n limit : Number} (given : r.minimum = some limit)
      (missed : n.toDouble < limit.toDouble) : Fails (.rules r) (.num n) (.minimum limit)

/-- Whether the type check of a schema holds of a value. -/
def TypeHolds (schema : Schema) (value : Json) : Prop :=
  ∀ types, ¬ schema.Fails value (.type types)

/-- Whether a check reports a cause of a value itself: of a wrong type, only the type. -/
def Reports (schema : Schema) (value : Json) (cause : Cause) : Prop :=
  schema.Fails value cause ∧ ((∃ types, cause = .type types) ∨ schema.TypeHolds value)

/-! ## Governed parts -/

/-- Whether a token leads from a value and its schema to a part of the value and the schema for
    it. -/
inductive Leads : Schema → Json → String → Schema → Json → Prop
  | property {r : SchemaRules Schema} {members : List (String × Json)} {key : String}
      {schema : Schema} {part : Json} (holds : (Schema.rules r).TypeHolds (.obj members))
      (named : r.properties.lookup key = some schema) (present : members.lookup key = some part) :
      Leads (.rules r) (.obj members) key schema part
  | additional {r : SchemaRules Schema} {members : List (String × Json)} {key : String}
      {schema : Schema} {part : Json} (holds : (Schema.rules r).TypeHolds (.obj members))
      (given : r.additional = some schema) (accepted : schema ≠ .always false)
      (unnamed : key ∉ r.properties.map Prod.fst) (present : members.lookup key = some part) :
      Leads (.rules r) (.obj members) key schema part
  | item {r : SchemaRules Schema} {items : List Json} {token : String} {i : Nat} {schema : Schema}
      {part : Json} (holds : (Schema.rules r).TypeHolds (.arr items))
      (given : r.items = some schema) (index : token = toString i)
      (present : items[i]? = some part) : Leads (.rules r) (.arr items) token schema part

/-- Whether a path leads from a value and its schema to a part of the value and the schema that
    governs it, through schemas whose type checks hold. -/
inductive Governs : Schema → Json → List String → Schema → Json → Prop
  | here {schema : Schema} {value : Json} : Governs schema value [] schema value
  | step {schema next sub : Schema} {value nextValue part : Json} {token : String}
      {path : List String} (leads : Leads schema value token next nextValue)
      (rest : Governs next nextValue path sub part) : Governs schema value (token :: path) sub part

variable {schema sub sub' : Schema} {value part part' : Json} {token : String} {path : List String}

theorem Leads.typeHolds (h : Leads schema value token sub part) : schema.TypeHolds value := by
  cases h with
  | property holds => exact holds
  | additional holds => exact holds
  | item holds => exact holds

/-- A token leads to one part and one schema for it. -/
theorem Leads.unique (h : Leads schema value token sub part)
    (h' : Leads schema value token sub' part') : sub = sub' ∧ part = part' := by
  cases h with
  | property _ named present =>
    cases h' with
    | property _ named' present' => simp_all
    | additional _ _ _ unnamed _ => simp_all [lookup_eq_none_iff.2 unnamed]
  | additional _ given _ unnamed present =>
    cases h' with
    | property _ named' _ => simp_all [lookup_eq_none_iff.2 unnamed]
    | additional _ given' _ _ present' => simp_all
  | item _ given index present =>
    cases h' with
    | item _ given' index' present' =>
      have hindex := toString_nat_injective (index.symm.trans index')
      simp_all

/-- A path leads to one part, and one schema governs it. -/
theorem Governs.unique (h : Governs schema value path sub part)
    (h' : Governs schema value path sub' part') : sub = sub' ∧ part = part' := by
  induction h with
  | here =>
    cases h'
    exact ⟨rfl, rfl⟩
  | step leads _ ih =>
    cases h' with
    | step leads' rest' =>
      obtain ⟨rfl, rfl⟩ := leads.unique leads'
      exact ih rest'

/-- A path passes through the parts at the ends of its beginnings. -/
theorem Governs.split {before after : List String}
    (h : Governs schema value (before ++ after) sub part) :
    ∃ mid between,
      Governs schema value before mid between ∧ Governs mid between after sub part := by
  induction before generalizing schema value with
  | nil => exact ⟨schema, value, .here, h⟩
  | cons token before ih =>
    cases h with
    | step leads rest =>
      obtain ⟨mid, between, hbefore, hafter⟩ := ih rest
      exact ⟨mid, between, .step leads hbefore, hafter⟩

/-- A governed part is the one that the path leads to. -/
theorem Leads.part? (h : Leads schema value token sub part) : value.part? token = some part := by
  cases h with
  | property _ _ present => exact present
  | additional _ _ _ _ present => exact present
  | item _ _ index present =>
    rw [index, Json.part?, tokenIndex?_toString]
    exact present

theorem Governs.follow? (h : Governs schema value path sub part) :
    value.follow? path = some part := by
  induction h with
  | here => rfl
  | step leads _ ih =>
    rw [Json.follow?, leads.part?, Option.bind_some]
    exact ih

/-! ## What holds of all parts -/

theorem Leads.every {p : SchemaRules Schema → Prop} (h : Leads schema value token sub part)
    (hschema : schema.Every p) : sub.Every p := by
  cases hschema with
  | always => cases h
  | rules _ properties additional items =>
    cases h with
    | property _ named => exact properties _ (mem_of_lookup named)
    | additional _ given => exact additional _ given
    | item _ given => exact items _ given

theorem Leads.isKeyed (h : Leads schema value token sub part) (hvalue : value.IsKeyed) :
    part.IsKeyed := by
  cases h with
  | property _ _ present =>
    cases hvalue with
    | obj _ parts => exact parts _ (mem_of_lookup present)
  | additional _ _ _ _ present =>
    cases hvalue with
    | obj _ parts => exact parts _ (mem_of_lookup present)
  | item _ _ _ present =>
    cases hvalue with
    | arr parts => exact parts _ (List.mem_of_getElem? present)

/-- The parts of a value are smaller than the value. -/
theorem Leads.sizeOf_lt (h : Leads schema value token sub part) : sizeOf part < sizeOf value := by
  cases h with
  | property _ _ present => exact sizeOf_lt_of_mem (mem_of_lookup present)
  | additional _ _ _ _ present => exact sizeOf_lt_of_mem (mem_of_lookup present)
  | item _ _ _ present =>
    have hlt := List.sizeOf_lt_of_mem (List.mem_of_getElem? present)
    rw [Json.arr.sizeOf_spec]
    omega

/-! ## What is reported of a value itself -/

section

variable (r : SchemaRules Schema) {f : Failure}

theorem typeHolds_rules_iff : (Schema.rules r).TypeHolds value ↔ r.allowsType value = true := by
  have hallows : r.allowsType value = true ↔
      r.types = [] ∨ ∃ t ∈ r.types, value.HasType t.name := by
    simp only [SchemaRules.allowsType, Bool.or_eq_true, List.isEmpty_iff, List.any_eq_true,
      TypeName.matches?_iff]
  rw [hallows]
  constructor
  · intro h
    by_contra hnone
    rw [not_or, not_exists] at hnone
    exact h r.types (.type hnone.1 fun t ht htype => hnone.2 t ⟨ht, htype⟩)
  · intro h types hfails
    cases hfails with
    | type listed others =>
      rcases h with hnil | ⟨t, ht, htype⟩
      · exact listed hnil
      · exact others t ht htype

theorem mem_broken_iff {α : Type} {limit : Option α} {breaks : α → Bool} {cause : α → Cause} :
    f ∈ SchemaRules.broken limit breaks cause ↔
      ∃ a, limit = some a ∧ breaks a = true ∧ f = .here (cause a) := by
  cases limit with
  | none => simp [SchemaRules.broken]
  | some a => simp [SchemaRules.broken]

/-- The causes that a list of failures finds at a value itself are the keywords that fail there,
    the type apart. -/
def Finds (found : List Failure) (value : Json) : Prop :=
  ∀ f, f ∈ found ↔ ∃ cause, f = .here cause ∧ (Schema.rules r).Fails value cause ∧
    ∀ types, cause ≠ .type types

theorem finds_nil (h : ∀ cause, (Schema.rules r).Fails value cause → ∃ types, cause = .type types) :
    Finds r [] value := by
  intro f
  refine ⟨nofun, ?_⟩
  rintro ⟨cause, -, hfails, htype⟩
  obtain ⟨types, hcause⟩ := h cause hfails
  exact absurd hcause (htype types)

theorem finds_textFailures (text : String) : Finds r (r.textFailures text) (.str text) := by
  intro f
  simp only [SchemaRules.textFailures, List.mem_append, mem_broken_iff, decide_eq_true_eq,
    Bool.not_eq_true']
  constructor
  · rintro ((⟨limit, given, h, rfl⟩ | ⟨limit, given, h, rfl⟩) | ⟨p, given, h, rfl⟩)
    · exact ⟨_, rfl, .maxLength given h, by rintro _ ⟨⟩⟩
    · exact ⟨_, rfl, .minLength given h, by rintro _ ⟨⟩⟩
    · exact ⟨_, rfl, .pattern given h, by rintro _ ⟨⟩⟩
  · rintro ⟨cause, rfl, hfails, htype⟩
    cases hfails with
    | type => exact absurd rfl (htype _)
    | maxLength given h => exact Or.inl (Or.inl ⟨_, given, h, rfl⟩)
    | minLength given h => exact Or.inl (Or.inr ⟨_, given, h, rfl⟩)
    | pattern given h => exact Or.inr ⟨_, given, h, rfl⟩

theorem finds_numberFailures (n : Number) : Finds r (r.numberFailures n) (.num n) := by
  intro f
  simp only [SchemaRules.numberFailures, List.mem_append, mem_broken_iff, decide_eq_true_eq]
  constructor
  · rintro (⟨limit, given, h, rfl⟩ | ⟨limit, given, h, rfl⟩)
    · exact ⟨_, rfl, .maximum given h, by rintro _ ⟨⟩⟩
    · exact ⟨_, rfl, .minimum given h, by rintro _ ⟨⟩⟩
  · rintro ⟨cause, rfl, hfails, htype⟩
    cases hfails with
    | type => exact absurd rfl (htype _)
    | maximum given h => exact Or.inl ⟨_, given, h, rfl⟩
    | minimum given h => exact Or.inr ⟨_, given, h, rfl⟩

theorem finds_countFailures (items : List Json) : Finds r (r.countFailures items) (.arr items) := by
  intro f
  simp only [SchemaRules.countFailures, List.mem_append, mem_broken_iff, decide_eq_true_eq]
  constructor
  · rintro (⟨limit, given, h, rfl⟩ | ⟨limit, given, h, rfl⟩)
    · exact ⟨_, rfl, .maxItems given h, by rintro _ ⟨⟩⟩
    · exact ⟨_, rfl, .minItems given h, by rintro _ ⟨⟩⟩
  · rintro ⟨cause, rfl, hfails, htype⟩
    cases hfails with
    | type => exact absurd rfl (htype _)
    | maxItems given h => exact Or.inl ⟨_, given, h, rfl⟩
    | minItems given h => exact Or.inr ⟨_, given, h, rfl⟩

theorem mem_missing_iff {members : List (String × Json)} :
    f ∈ r.missing members ↔
      ∃ name ∈ r.required, name ∉ members.map Prod.fst ∧ f = .here (.required name) := by
  simp only [SchemaRules.missing, List.mem_map (f := fun name => Failure.here (.required name)),
    List.mem_filter, Option.isNone_iff_eq_none, lookup_eq_none_iff, and_assoc]
  exact exists_congr fun name => and_congr_right fun _ => and_congr_right fun _ => eq_comm

/-- What fails at an object itself is that members are missing, or refused. -/
theorem mem_missing_or_refused_iff {members : List (String × Json)} :
    (f ∈ r.missing members ∨ ∃ key, f = .here (.additionalProperty key) ∧
        (Schema.rules r).Fails (.obj members) (.additionalProperty key)) ↔
      ∃ cause, f = .here cause ∧ (Schema.rules r).Fails (.obj members) cause ∧
        ∀ types, cause ≠ .type types := by
  rw [mem_missing_iff]
  constructor
  · rintro (⟨name, listed, absent, rfl⟩ | ⟨key, rfl, hfails⟩)
    · exact ⟨_, rfl, .required listed absent, nofun⟩
    · exact ⟨_, rfl, hfails, nofun⟩
  · rintro ⟨cause, rfl, hfails, htype⟩
    cases hfails with
    | type => exact absurd rfl (htype _)
    | required listed absent => exact Or.inl ⟨_, listed, absent, rfl⟩
    | additionalProperty refused present unnamed =>
      exact Or.inr ⟨_, rfl, .additionalProperty refused present unnamed⟩

theorem mem_extra_iff {members : List (String × Json)} {member : String × Json} :
    member ∈ r.extra members ↔ member ∈ members ∧ member.1 ∉ r.properties.map Prod.fst := by
  simp only [SchemaRules.extra, List.mem_filter, ← r.names_iff, Bool.not_eq_true',
    Bool.not_eq_true]

end

/-! ## What is reported of the parts of a value -/

section

variable {f : Failure}

theorem mem_additionalFailures_iff {additional : Option Schema} {members : List (String × Json)} :
    f ∈ additionalFailures additional members ↔
      (additional = some (.always false) ∧
        ∃ member ∈ members, f = .here (.additionalProperty member.1)) ∨
      ∃ schema, additional = some schema ∧ schema ≠ .always false ∧
        ∃ member ∈ members, ∃ g ∈ schema.failures member.2, f = g.under member.1 := by
  unfold additionalFailures
  split
  · simp
  · simp [eq_comm]
  · next schema hne =>
    have hschema : schema ≠ .always false := fun h => hne h
    simp [hschema, eq_comm]

theorem mem_propertyFailures_iff {properties : List (String × Schema)}
    {members : List (String × Json)} :
    f ∈ propertyFailures properties members ↔
      ∃ property ∈ properties, ∃ part, members.lookup property.1 = some part ∧
        ∃ g ∈ property.2.failures part, f = g.under property.1 := by
  induction properties with
  | nil => simp [propertyFailures]
  | cons property properties ih =>
    simp only [propertyFailures, List.mem_append, ih, List.exists_mem_cons_iff]
    refine or_congr_left ?_
    cases members.lookup property.1 with
    | none => simp
    | some part => simp [eq_comm]

theorem mem_itemFailures_iff {schema : Option Schema} {items : List Json} :
    f ∈ itemFailures schema (indexed items) ↔
      ∃ each, schema = some each ∧ ∃ (i : Nat) (part : Json), items[i]? = some part ∧
        ∃ g ∈ each.failures part, f = g.under (toString i) := by
  cases schema with
  | none => simp [itemFailures]
  | some each =>
    simp only [itemFailures, indexed, List.flatMap_map, List.mem_flatMap, List.mem_map,
      List.mem_zipIdx_iff_getElem?, Prod.exists, Option.some.injEq, exists_eq_left']
    rw [exists_comm]
    simp only [eq_comm]

/-- Whether a failure is one of a part of a value. -/
def IsOfPart (schema : Schema) (value : Json) (f : Failure) : Prop :=
  ∃ token sub part, Leads schema value token sub part ∧ ∃ g ∈ sub.failures part, f = g.under token

variable {r : SchemaRules Schema}

theorem mem_itemFailures_iff_isOfPart {items : List Json}
    (holds : (Schema.rules r).TypeHolds (.arr items)) :
    f ∈ itemFailures r.items (indexed items) ↔ IsOfPart (.rules r) (.arr items) f := by
  rw [mem_itemFailures_iff]
  constructor
  · rintro ⟨each, given, i, part, present, g, hg, rfl⟩
    exact ⟨_, each, part, .item holds given rfl present, g, hg, rfl⟩
  · rintro ⟨token, sub, part, hleads, g, hg, rfl⟩
    cases hleads with
    | item _ given index present => exact ⟨sub, given, _, part, present, g, hg, by rw [index]⟩

theorem mem_memberFailures_iff {members : List (String × Json)}
    (hproperties : (r.properties.map Prod.fst).Nodup) (hmembers : (members.map Prod.fst).Nodup)
    (holds : (Schema.rules r).TypeHolds (.obj members)) :
    f ∈ additionalFailures r.additional (r.extra members) ++ propertyFailures r.properties members ↔
      (∃ key, f = .here (.additionalProperty key) ∧
        (Schema.rules r).Fails (.obj members) (.additionalProperty key)) ∨
      IsOfPart (.rules r) (.obj members) f := by
  rw [List.mem_append, mem_additionalFailures_iff, mem_propertyFailures_iff]
  constructor
  · rintro ((⟨refused, member, hmember, rfl⟩ |
      ⟨schema, given, accepted, member, hmember, g, hg, rfl⟩) |
      ⟨property, hproperty, part, present, g, hg, rfl⟩)
    · obtain ⟨present, unnamed⟩ := (mem_extra_iff r).1 hmember
      exact Or.inl ⟨_, rfl, .additionalProperty refused (List.mem_map_of_mem present) unnamed⟩
    · obtain ⟨present, unnamed⟩ := (mem_extra_iff r).1 hmember
      have hlookup := (lookup_eq_some_iff_mem hmembers).2 present
      exact Or.inr ⟨_, _, _, .additional holds given accepted unnamed hlookup, g, hg, rfl⟩
    · have hlookup := (lookup_eq_some_iff_mem hproperties).2 hproperty
      exact Or.inr ⟨_, _, _, .property holds hlookup present, g, hg, rfl⟩
  · rintro (⟨key, rfl, hfails⟩ | ⟨token, sub, part, hleads, g, hg, rfl⟩)
    · cases hfails with
      | additionalProperty refused present unnamed =>
        obtain ⟨member, hmember, rfl⟩ := List.mem_map.1 present
        exact Or.inl (Or.inl ⟨refused, member, (mem_extra_iff r).2 ⟨hmember, unnamed⟩, rfl⟩)
    · cases hleads with
      | property _ named present =>
        exact Or.inr ⟨(token, sub), mem_of_lookup named, part, present, g, hg, rfl⟩
      | additional _ given accepted unnamed present =>
        have hmember := (mem_extra_iff r).2 ⟨mem_of_lookup present, unnamed⟩
        exact Or.inl (Or.inr ⟨sub, given, accepted, (token, part), hmember, g, hg, rfl⟩)

/-- A value of an allowed type has the failures of its keywords and of its parts. -/
theorem mem_failures_iff_of_typeHolds (hschema : (Schema.rules r).IsKeyed) (hvalue : value.IsKeyed)
    (holds : (Schema.rules r).TypeHolds value) :
    f ∈ (Schema.rules r).failures value ↔
      (∃ cause, f = .here cause ∧ (Schema.rules r).Fails value cause ∧
        ∀ types, cause ≠ .type types) ∨ IsOfPart (.rules r) value f := by
  have hallows := (typeHolds_rules_iff r).1 holds
  -- only arrays and objects have parts
  have hscalar (found : List Failure) (hfound : Finds r found value)
      (hparts : ∀ token sub part, ¬ Leads (.rules r) value token sub part) :
      f ∈ found ↔ (∃ cause, f = .here cause ∧ (Schema.rules r).Fails value cause ∧
        ∀ types, cause ≠ .type types) ∨ IsOfPart (.rules r) value f := by
    rw [hfound f, or_iff_left]
    rintro ⟨token, sub, part, hleads, -⟩
    exact hparts token sub part hleads
  cases value with
  | null | bool =>
    simp only [failures, hallows, not_true_eq_false, if_false]
    refine hscalar [] (finds_nil r fun cause hfails => ?_) (by rintro _ _ _ ⟨⟩)
    cases hfails
    exact ⟨_, rfl⟩
  | num n =>
    simp only [failures, hallows, not_true_eq_false, if_false]
    exact hscalar _ (finds_numberFailures r n) (by rintro _ _ _ ⟨⟩)
  | str text =>
    simp only [failures, hallows, not_true_eq_false, if_false]
    exact hscalar _ (finds_textFailures r text) (by rintro _ _ _ ⟨⟩)
  | arr items =>
    simp only [failures, hallows, not_true_eq_false, if_false]
    rw [List.mem_append, finds_countFailures r items f, mem_itemFailures_iff_isOfPart holds]
  | obj members =>
    cases hschema with
    | rules hproperties =>
      cases hvalue with
      | obj hmembers =>
        simp only [failures, hallows, not_true_eq_false, if_false]
        rw [List.append_assoc, List.mem_append, mem_memberFailures_iff hproperties hmembers holds,
          ← or_assoc, mem_missing_or_refused_iff r]

theorem failures_of_wrongType (h : ¬ r.allowsType value = true) :
    (Schema.rules r).failures value = [.here (.type r.types)] := by
  cases value <;> simp [failures, h]

/-- **What a check reports is what it reports of the value itself and of its parts.** -/
theorem mem_failures_iff_isOfPart (hschema : schema.IsKeyed) (hvalue : value.IsKeyed) :
    f ∈ schema.failures value ↔
      (∃ cause, f = .here cause ∧ schema.Reports value cause) ∨ IsOfPart schema value f := by
  have hparts (h : ∀ token sub part, ¬ Leads schema value token sub part) :
      ¬ IsOfPart schema value f := fun ⟨token, sub, part, hleads, _⟩ => h token sub part hleads
  cases schema with
  | always accepts =>
    rw [or_iff_left (hparts nofun)]
    cases accepts with
    | true =>
      refine ⟨nofun, ?_⟩
      rintro ⟨cause, -, hfails, -⟩
      cases hfails
    | false =>
      simp only [failures, List.mem_singleton]
      constructor
      · rintro rfl
        exact ⟨.nothing, rfl, .nothing, Or.inr (by rintro _ ⟨⟩)⟩
      · rintro ⟨cause, rfl, hfails, -⟩
        cases hfails
        rfl
  | rules r =>
    by_cases holds : (Schema.rules r).TypeHolds value
    · rw [mem_failures_iff_of_typeHolds hschema hvalue holds]
      refine or_congr_left (exists_congr fun cause => and_congr_right fun _ => ?_)
      refine and_congr_right fun hfails => ⟨fun _ => Or.inr holds, fun _ types heq => ?_⟩
      exact holds types (heq ▸ hfails)
    · -- of a wrong type only the type is reported
      obtain ⟨types, hfails⟩ := not_forall_not.1 holds
      cases hfails with
      | type listed others =>
        have hallows : ¬ r.allowsType value = true := fun h => holds ((typeHolds_rules_iff r).2 h)
        rw [or_iff_left (hparts fun token sub part hleads => holds hleads.typeHolds),
          failures_of_wrongType hallows, List.mem_singleton]
        constructor
        · rintro rfl
          exact ⟨_, rfl, .type listed others, Or.inl ⟨_, rfl⟩⟩
        · rintro ⟨cause, rfl, hfails, htype | htype⟩
          · obtain ⟨types, rfl⟩ := htype
            cases hfails
            rfl
          · exact absurd htype holds

/-- **A check reports what fails at the governed parts, and nothing else.** -/
theorem mem_failures_iff (hschema : schema.IsKeyed) (hvalue : value.IsKeyed) :
    f ∈ schema.failures value ↔
      ∃ sub part, Governs schema value f.path sub part ∧ sub.Reports part f.cause := by
  obtain ⟨path, cause⟩ := f
  induction path generalizing schema value with
  | nil =>
    rw [mem_failures_iff_isOfPart hschema hvalue]
    constructor
    · rintro (⟨other, heq, hreports⟩ | ⟨token, sub, part, -, g, -, heq⟩)
      · cases heq
        exact ⟨schema, value, .here, hreports⟩
      · cases heq
    · rintro ⟨sub, part, hgoverns, hreports⟩
      cases hgoverns
      exact Or.inl ⟨cause, rfl, hreports⟩
  | cons token path ih =>
    rw [mem_failures_iff_isOfPart hschema hvalue]
    constructor
    · rintro (⟨other, heq, -⟩ | ⟨_, next, nextValue, hleads, ⟨path, cause⟩, hg, heq⟩)
      · cases heq
      · cases heq
        have hnext := ih (hleads.every hschema) (hleads.isKeyed hvalue)
        obtain ⟨sub, part, hgoverns, hreports⟩ := hnext.1 hg
        exact ⟨sub, part, .step hleads hgoverns, hreports⟩
    · rintro ⟨sub, part, hgoverns, hreports⟩
      cases hgoverns with
      | step hleads hrest =>
        have hnext := ih (hleads.every hschema) (hleads.isKeyed hvalue)
        exact Or.inr ⟨token, _, _, hleads, _, hnext.2 ⟨sub, part, hrest, hreports⟩, rfl⟩

end

end GuideCheck.Schema
