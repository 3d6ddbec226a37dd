import GuideCheck.Proofs.Compilation
import GuideCheck.Schema.Check

set_option autoImplicit false

/-! # Validation decides what schema documents mean

A schema made from a document finds no failure in a value if and only if the value satisfies the
document (`validate_eq_nil_iff`). Each check is about one field of the rules, and what this field
holds of the document (`Reads`) turns the check into what the keyword asks for. Checks of parts of
the value go by induction on the document (`decides_of_compiled`), because the schemas for them were
read from parts of it. -/

namespace GuideCheck

/-! ## Types and numbers -/

theorem Number.isWhole_iff (n : Number) : n.isWhole = true ↔ n.IsWhole := by
  cases n with
  | int i => exact ⟨fun _ => trivial, fun _ => rfl⟩
  | double x => simp [isWhole, IsWhole, Double.isWhole, Nat.dvd_iff_mod_eq_zero]

theorem TypeName.matches?_iff (t : TypeName) (value : Json) :
    t.matches? value = true ↔ value.HasType t.name := by
  cases t <;> cases value <;> simp [matches?, Json.HasType, name, Number.isWhole_iff]

theorem Double.not_lt {x y : Double} : ¬ x < y ↔ y ≤ x := Int.not_lt

/-! ## Checks without schemas in them -/

/-- A key has a value if some member has the key. -/
theorem isSome_lookup_iff {α β : Type} [BEq α] [LawfulBEq α] (members : List (α × β)) (key : α) :
    (members.lookup key).isSome = true ↔ key ∈ members.map Prod.fst := by
  rw [List.lookup_isSome_iff, List.mem_map]
  exact exists_congr fun member => and_congr_right fun _ => beq_iff_eq.trans eq_comm

namespace SchemaRules

variable {σ : Type} (r : SchemaRules σ)

theorem broken_eq_nil_iff {α : Type} (limit : Option α) (breaks : α → Bool)
    (cause : α → Schema.Cause) :
    broken limit breaks cause = [] ↔ ∀ a, limit = some a → breaks a = false := by
  cases limit with
  | none => simp [broken]
  | some a => simp [broken]

theorem countFailures_eq_nil_iff (items : List Json) :
    r.countFailures items = [] ↔
      (∀ n, r.minItems = some n → n ≤ items.length) ∧
        ∀ n, r.maxItems = some n → items.length ≤ n := by
  simp only [countFailures, List.append_eq_nil_iff, broken_eq_nil_iff, decide_eq_false_iff_not,
    Nat.not_lt]
  exact And.comm

theorem textFailures_eq_nil_iff (text : String) :
    r.textFailures text = [] ↔
      ((∀ n, r.minLength = some n → n ≤ text.length) ∧
        ∀ n, r.maxLength = some n → text.length ≤ n) ∧
        ∀ p, r.pattern = some p → p.isMatch text = true := by
  simp only [textFailures, List.append_eq_nil_iff, broken_eq_nil_iff, decide_eq_false_iff_not,
    Nat.not_lt, Bool.not_eq_false']
  exact and_congr_left' And.comm

theorem numberFailures_eq_nil_iff (n : Number) :
    r.numberFailures n = [] ↔
      (∀ limit, r.minimum = some limit → limit.toDouble ≤ n.toDouble) ∧
        ∀ limit, r.maximum = some limit → n.toDouble ≤ limit.toDouble := by
  simp only [numberFailures, List.append_eq_nil_iff, broken_eq_nil_iff, decide_eq_false_iff_not,
    Double.not_lt]
  exact And.comm

theorem missing_eq_nil_iff (members : List (String × Json)) :
    r.missing members = [] ↔ ∀ name ∈ r.required, name ∈ members.map Prod.fst := by
  simp only [missing, List.map_eq_nil_iff, List.filter_eq_nil_iff, ← isSome_lookup_iff]
  refine forall₂_congr fun name _ => ?_
  cases members.lookup name <;> simp

theorem names_iff (key : String) : r.names key = true ↔ key ∈ r.properties.map Prod.fst :=
  isSome_lookup_iff r.properties key

/-- Members that are not named are those that the schema for them has to accept. -/
theorem forall_mem_extra_iff (members : List (String × Json)) (p : Json → Prop) :
    (∀ member ∈ r.extra members, p member.2) ↔
      ∀ member ∈ members, ¬ member.1 ∈ r.properties.map Prod.fst → p member.2 := by
  simp only [extra, List.mem_filter, Bool.not_eq_true', Bool.eq_false_iff, ne_eq, names_iff,
    and_imp]

end SchemaRules

namespace Schema

/-! ## Checks of the parts of a value -/

/-- Members that are not named are checked one by one. A schema that accepts nothing is reported in
    its own way, and a failure it is. -/
theorem additionalFailures_eq_nil_iff (schema : Schema) (members : List (String × Json)) :
    additionalFailures (some schema) members = [] ↔
      ∀ member ∈ members, schema.failures member.2 = [] := by
  cases schema with
  | rules r => simp only [additionalFailures, List.flatMap_eq_nil_iff, List.map_eq_nil_iff]
  | always accepts =>
    cases accepts with
    | true => simp only [additionalFailures, List.flatMap_eq_nil_iff, List.map_eq_nil_iff]
    | false =>
      simp only [additionalFailures, failures, List.map_eq_nil_iff, reduceCtorEq, imp_false]
      exact List.eq_nil_iff_forall_not_mem

theorem itemFailures_eq_nil_iff (schema : Schema) (items : List Json) :
    itemFailures (some schema) (indexed items) = [] ↔
      ∀ item ∈ items, schema.failures item = [] := by
  -- without their indices, the items with indices are the items
  have hitems := List.forall_mem_map (f := Prod.fst) (l := items.zipIdx)
    (P := fun item => schema.failures item = [])
  rw [List.zipIdx_map_fst] at hitems
  simp only [itemFailures, indexed, List.flatMap_eq_nil_iff, List.map_eq_nil_iff,
    List.forall_mem_map, hitems]

theorem propertyFailures_eq_nil_iff (properties : List (String × Schema))
    (members : List (String × Json)) :
    propertyFailures properties members = [] ↔
      ∀ property ∈ properties, ∀ part, members.lookup property.1 = some part →
        property.2.failures part = [] := by
  induction properties with
  | nil => simp [propertyFailures]
  | cons property rest ih =>
    rw [propertyFailures, List.append_eq_nil_iff, ih, List.forall_mem_cons]
    refine and_congr_left' ?_
    cases members.lookup property.1 with
    | none => simp
    | some part => simp

/-- A value without failures has an allowed type and breaks no rule for values of its type. -/
theorem failures_rules_eq_nil_iff (r : SchemaRules Schema) (value : Json) :
    (Schema.rules r).failures value = [] ↔ r.allowsType value = true ∧
      match value with
      | .obj members =>
        r.missing members = [] ∧ additionalFailures r.additional (r.extra members) = [] ∧
          propertyFailures r.properties members = []
      | .arr items => r.countFailures items = [] ∧ itemFailures r.items (indexed items) = []
      | .str text => r.textFailures text = []
      | .num n => r.numberFailures n = []
      | .null | .bool _ => True := by
  by_cases htype : r.allowsType value = true
  · cases value <;> simp [failures, htype]
  · cases value <;> simp [failures, htype]

/-! ## What rules hold of their document -/

variable {engine : PatternEngine} {keywords : List (String × Json)} {r : SchemaRules Schema}

namespace Reads

theorem allowsType_iff (h : Reads engine keywords r) (value : Json) :
    r.allowsType value = true ↔ AllowsType keywords value := by
  have hallows : r.allowsType value = true ↔
      r.types = [] ∨ ∃ t ∈ r.types, value.HasType t.name := by
    simp only [SchemaRules.allowsType, Bool.or_eq_true, List.isEmpty_iff, List.any_eq_true,
      TypeName.matches?_iff]
  rw [hallows]
  unfold AllowsType
  rcases h.types with ⟨hnone, htypes⟩ | hnames
  · simp [hnone, htypes]
  · obtain ⟨types, htypes, hnames⟩ := Option.bind_eq_some_iff.1 hnames
    simp only [htypes, Option.some.injEq, forall_eq', lists_iff hnames,
      eq_nil_iff_of_typeNames? hnames, List.map_eq_nil_iff, List.mem_map,
      exists_exists_and_eq_and]

theorem hasRequired_iff (h : Reads engine keywords r) (members : List (String × Json)) :
    r.missing members = [] ↔ HasRequired keywords members := by
  rw [SchemaRules.missing_eq_nil_iff]
  unfold HasRequired
  rcases h.required with ⟨hnone, hrequired⟩ | hnames
  · simp [hnone, hrequired]
  · simp [hnames]

theorem names_iff (h : Reads engine keywords r) (key : String) :
    key ∈ r.properties.map Prod.fst ↔ Names keywords key := by
  unfold Names
  rcases h.properties with ⟨hnone, hproperties⟩ | ⟨members, hmembers, hcompiled⟩
  · simp [hnone, hproperties]
  · simp [hmembers, ← hcompiled.map_fst]

theorem fitsPattern_iff (h : Reads engine keywords r) (text : String) :
    (∀ p, r.pattern = some p → p.isMatch text = true) ↔
      FitsPattern engine (keyword? "pattern" keywords) text := by
  obtain ⟨hsource, hread⟩ := h.pattern
  unfold FitsPattern
  rw [hsource]
  cases hp : r.pattern with
  | none => simp
  | some p => simp [hread p hp]

end Reads

theorem countWithin_iff {least greatest : Option Nat} {count : Nat} :
    CountWithin (least.map .ofNat) (greatest.map .ofNat) count ↔
      (∀ n, least = some n → n ≤ count) ∧ ∀ n, greatest = some n → count ≤ n := by
  cases least <;> cases greatest <;> simp [CountWithin, Json.ofNat]

theorem sizeWithin_iff {least greatest : Option Number} {n : Number} :
    SizeWithin (least.map .num) (greatest.map .num) n ↔
      (∀ limit, least = some limit → limit.toDouble ≤ n.toDouble) ∧
        ∀ limit, greatest = some limit → n.toDouble ≤ limit.toDouble := by
  cases least <;> cases greatest <;> simp [SizeWithin]

/-! ## Documents -/

/-- A schema finds no failure in exactly the values that satisfy a document. -/
def Decides (engine : PatternEngine) (document : Json) (schema : Schema) : Prop :=
  ∀ value, schema.failures value = [] ↔ Satisfies engine document value

theorem decides_always (accepts : Bool) : Decides engine (.bool accepts) (.always accepts) := by
  intro value
  cases accepts <;> simp [failures, Satisfies]

section

variable {documents : List (String × Json)} {properties : List (String × Schema)}
  {document : Option Json} {schema : Option Schema}

theorem propertyFailures_iff_satisfies
    (h : List.Forall₂ (fun member property => member.1 = property.1 ∧
      Decides engine member.2 property.2) documents properties) (members : List (String × Json)) :
    propertyFailures properties members = [] ↔
      ∀ property ∈ documents, ∀ part, members.lookup property.1 = some part →
        Satisfies engine property.2 part := by
  rw [propertyFailures_eq_nil_iff]
  induction h with
  | nil => simp
  | cons hproperty _ ih =>
    obtain ⟨hname, hdecides⟩ := hproperty
    rw [List.forall_mem_cons, List.forall_mem_cons, ih, hname]
    exact and_congr_left' (forall₂_congr fun part _ => hdecides part)

theorem additionalFailures_iff_satisfies (h : Option.Rel (Decides engine) document schema)
    (members : List (String × Json)) :
    additionalFailures schema members = [] ↔
      ∀ other, document = some other → ∀ member ∈ members, Satisfies engine other member.2 := by
  cases h with
  | none => simp [additionalFailures]
  | some hdecides =>
    simp only [additionalFailures_eq_nil_iff, Option.some.injEq, forall_eq']
    exact forall₂_congr fun member _ => hdecides member.2

theorem itemFailures_iff_satisfies (h : Option.Rel (Decides engine) document schema)
    (items : List Json) :
    itemFailures schema (indexed items) = [] ↔
      ∀ each, document = some each → ∀ item ∈ items, Satisfies engine each item := by
  cases h with
  | none => simp [itemFailures]
  | some hdecides =>
    simp only [itemFailures_eq_nil_iff, Option.some.injEq, forall_eq']
    exact forall₂_congr fun item _ => hdecides item

end

namespace Reads

variable (h : Reads engine keywords r)
  (hparts : ∀ part schema, sizeOf part < sizeOf (Json.obj keywords) →
    Compiled engine part schema → Decides engine part schema)

include hparts

/-- A keyword with a schema document as its value. -/
theorem rel_decides {name : String} {schema : Option Schema}
    (hrel : Option.Rel (Compiled engine) (keyword? name keywords) schema) :
    Option.Rel (Decides engine) (keyword? name keywords) schema := by
  cases hpart : keyword? name keywords with
  | none =>
    rw [hpart] at hrel
    cases hrel
    exact .none
  | some part =>
    rw [hpart] at hrel
    cases hrel with
    | some hcompiled => exact .some (hparts part _ (sizeOf_lt_of_keyword? hpart) hcompiled)

include h

theorem properties_iff (members : List (String × Json)) :
    propertyFailures r.properties members = [] ↔
      ∀ properties, keyword? "properties" keywords = some (.obj properties) →
        ∀ property ∈ properties, ∀ part, members.lookup property.1 = some part →
          Satisfies engine property.2 part := by
  rcases h.properties with ⟨hnone, hproperties⟩ | ⟨documents, hdocuments, hcompiled⟩
  · simp [hnone, hproperties, propertyFailures]
  · have hsize : ∀ document ∈ documents, sizeOf document.2 < sizeOf (Json.obj keywords) :=
      fun document hdocument =>
        Nat.lt_trans (sizeOf_lt_of_mem hdocument) (sizeOf_lt_of_keyword? hdocuments)
    have hdecides := ((List.forall₂_and_left _ _).2 ⟨hsize, hcompiled⟩).imp
      fun document property hproperty =>
        And.intro hproperty.2.1 (hparts _ _ hproperty.1 hproperty.2.2)
    rw [propertyFailures_iff_satisfies hdecides members, hdocuments]
    simp

theorem additional_iff (members : List (String × Json)) :
    additionalFailures r.additional (r.extra members) = [] ↔
      ∀ other, keyword? "additionalProperties" keywords = some other →
        ∀ member ∈ members, ¬ Names keywords member.1 → Satisfies engine other member.2 := by
  rw [additionalFailures_iff_satisfies (rel_decides hparts h.additional)]
  refine forall₂_congr fun other _ => ?_
  rw [r.forall_mem_extra_iff members (Satisfies engine other)]
  simp only [h.names_iff]

/-- The rules find no failure in a value that satisfies the keywords, and in no other. -/
theorem decides : Decides engine (.obj keywords) (.rules r) := by
  intro value
  rw [failures_rules_eq_nil_iff, h.allowsType_iff]
  cases value with
  | obj members =>
    simp only [Satisfies, h.hasRequired_iff, h.properties_iff hparts, h.additional_iff hparts]
    rw [And.comm (b := ∀ properties, _)]
  | arr items =>
    simp only [Satisfies, r.countFailures_eq_nil_iff, h.minItems, h.maxItems, countWithin_iff,
      itemFailures_iff_satisfies (rel_decides hparts h.items)]
  | str text =>
    simp only [Satisfies, r.textFailures_eq_nil_iff, h.minLength, h.maxLength, countWithin_iff,
      h.fitsPattern_iff]
  | num n =>
    simp only [Satisfies, r.numberFailures_eq_nil_iff, h.minimum, h.maximum, sizeWithin_iff]
  | null => simp only [Satisfies]
  | bool b => simp only [Satisfies]

end Reads

/-- A schema decides the document that it was read from. -/
theorem decides_of_compiled (document : Json) {schema : Schema}
    (h : Compiled engine document schema) : Decides engine document schema := by
  obtain ⟨location, h⟩ := h
  have hparts : ∀ part schema, sizeOf part < sizeOf document →
      Compiled engine part schema → Decides engine part schema :=
    fun part schema hlt hpart => decides_of_compiled part hpart
  cases document with
  | bool accepts =>
    simp only [compileAt, Except.ok.injEq] at h
    rw [← h]
    exact decides_always accepts
  | obj keywords =>
    obtain ⟨r, rfl, hr⟩ := exists_reads h
    exact hr.decides hparts
  | null => simp [compileAt] at h
  | num n => simp [compileAt] at h
  | str text => simp [compileAt] at h
  | arr items => simp [compileAt] at h
termination_by sizeOf document

/-- **Reading and checking decide what a schema document means.** Whichever engine reads patterns, a
    schema read from a document reports no violation in exactly the values that satisfy the
    document. -/
theorem validate_eq_nil_iff {engine : PatternEngine} {document : Json} {schema : Schema}
    (h : compile engine document = .ok schema) (value : Json) :
    schema.validate value = [] ↔ Satisfies engine document value := by
  rw [validate, List.map_eq_nil_iff]
  exact decides_of_compiled document ⟨"", h⟩ value

/-- A document with a length and a pattern, a value that satisfies it and one that does not. -/
theorem validate_eq_nil_iff_name :
    let engine : PatternEngine := fun source =>
      if source = "^a" then some fun text => text.toList.head? = some 'a' else none
    let document := Json.obj [("additionalProperties", .bool false), ("properties", .obj
      [("name", .obj [("maxLength", .ofNat 3), ("pattern", .str "^a"), ("type", .str "string")])])]
    Satisfies engine document (.obj [("name", .str "abc")]) ∧
      ¬ Satisfies engine document (.obj [("name", .str "bcde"), ("other", .null)]) := by
  intro engine document
  have hcompile : compile engine document = .ok _ := rfl
  exact ⟨(validate_eq_nil_iff hcompile _).1 rfl,
    fun h => nomatch (validate_eq_nil_iff hcompile _).2 h⟩

end Schema

end GuideCheck
