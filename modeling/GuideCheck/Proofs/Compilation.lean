import GuideCheck.Proofs.Meaning
import GuideCheck.Schema.Compile
import Mathlib.Data.List.Forall2

set_option autoImplicit false

/-! # What is read of a schema document

Reading an object of keywords sets one field of the rules after the other. `Sets` says what one
keyword does: it sets its own field to what its value says and leaves all other fields, and a member
that is no keyword leaves all of them. `Reads` says what the rules hold in the end, field by field
in terms of the document: the default if the keyword is absent and what its last value says
otherwise (`exists_reads`). -/

namespace GuideCheck

theorem TypeName.ofName?_eq_some {name : String} {t : TypeName} (h : ofName? name = some t) :
    name = t.name := by
  have hname := List.find?_some h
  simp only [decide_eq_true_eq] at hname
  exact hname.symm

namespace Schema

/-! ## Values of keywords -/

variable {engine : PatternEngine} {location key : String} {value : Json} {r r' : SchemaRules Schema}

theorem expecting_eq_ok {α : Type} {keyword : Keyword} {result : Option α} {a : α}
    (h : expecting location keyword result = .ok a) : result = some a := by
  cases result with
  | none => simp [expecting] at h
  | some b =>
    simp only [expecting, Except.ok.injEq] at h
    rw [h]

theorem number?_eq_some {n : Number} (h : value.number? = some n) : value = .num n := by
  cases value <;> simp_all [Json.number?]

theorem text?_eq_some {text : String} (h : value.text? = some text) : value = .str text := by
  cases value <;> simp_all [Json.text?]

theorem items?_eq_some {items : List Json} (h : value.items? = some items) :
    value = .arr items := by
  cases value <;> simp_all [Json.items?]

theorem natural?_eq_some {n : Number} {k : Nat} (h : n.natural? = some k) : n = .int k := by
  cases n with
  | double x => simp [Number.natural?] at h
  | int i =>
    simp only [Number.natural?, Option.ite_none_right_eq_some, Option.some.injEq] at h
    rw [← h.2, Int.toNat_of_nonneg h.1]

theorem count_eq_ok {keyword : Keyword} {n : Nat} (h : count location keyword value = .ok n) :
    value = .ofNat n := by
  obtain ⟨number, hnumber, hnatural⟩ := Option.bind_eq_some_iff.1 (expecting_eq_ok h)
  rw [number?_eq_some hnumber, natural?_eq_some hnatural]
  rfl

theorem texts?_eq_some {values : List Json} {texts : List String}
    (h : texts? values = some texts) : values = texts.map .str := by
  induction values generalizing texts with
  | nil =>
    simp only [texts?, List.mapM_nil, Option.pure_def, Option.some.injEq] at h
    simp [← h]
  | cons value rest ih =>
    simp only [texts?, List.mapM_cons, Option.bind_eq_bind, Option.bind_eq_some_iff,
      Option.pure_def, Option.some.injEq] at h
    obtain ⟨text, htext, others, hothers, rfl⟩ := h
    rw [text?_eq_some htext, ih hothers, List.map_cons]

theorem typesOf_eq_ok {names : List String} {types : List TypeName}
    (h : typesOf location names = .ok types) : names = types.map TypeName.name := by
  induction names generalizing types with
  | nil =>
    simp only [typesOf, Except.ok.injEq] at h
    simp [← h]
  | cons name rest ih =>
    simp only [typesOf] at h
    cases hname : TypeName.ofName? name with
    | none => simp [hname] at h
    | some t =>
      simp only [hname] at h
      cases hrest : typesOf location rest with
      | error fault => simp [hrest, Except.map] at h
      | ok others =>
        simp only [hrest, Except.map, Except.ok.injEq] at h
        rw [← h, TypeName.ofName?_eq_some hname, ih hrest, List.map_cons]

/-- A `type` keyword is a name or an array of names. -/
theorem typeNames?_eq_some {names : List String} (h : typeNames? value = some names) :
    (∃ name, value = .str name ∧ names = [name]) ∨ value = .arr (names.map .str) := by
  cases value with
  | str name => exact Or.inl ⟨name, rfl, (Option.some.inj h).symm⟩
  | arr values => exact Or.inr (congrArg Json.arr (texts?_eq_some h))
  | null => exact absurd h nofun
  | bool b => exact absurd h nofun
  | num n => exact absurd h nofun
  | obj members => exact absurd h nofun

/-- The names that a `type` keyword lists are those read of it. -/
theorem lists_iff {names : List String} (h : typeNames? value = some names) (name : String) :
    Lists value name ↔ name ∈ names := by
  unfold Lists
  rcases typeNames?_eq_some h with ⟨text, rfl, rfl⟩ | rfl
  · simp [eq_comm]
  · simp

/-- A `type` keyword that lists no name is an empty array. -/
theorem eq_nil_iff_of_typeNames? {names : List String} (h : typeNames? value = some names) :
    value = .arr [] ↔ names = [] := by
  rcases typeNames?_eq_some h with ⟨text, rfl, rfl⟩ | rfl
  · simp
  · simp

/-! ## One keyword -/

/-- A schema is the one that a document says, wherever the document stands. -/
def Compiled (engine : PatternEngine) (document : Json) (schema : Schema) : Prop :=
  ∃ location, compileAt engine location document = .ok schema

/-- The schemas of properties are those that the documents say, under the same names. -/
def CompiledMembers (engine : PatternEngine) :
    List (String × Json) → List (String × Schema) → Prop :=
  List.Forall₂ fun member property => member.1 = property.1 ∧ Compiled engine member.2 property.2

theorem CompiledMembers.map_fst {members : List (String × Json)}
    {properties : List (String × Schema)} (h : CompiledMembers engine members properties) :
    members.map Prod.fst = properties.map Prod.fst := by
  induction h with
  | nil => rfl
  | cons hmember _ ih => rw [List.map_cons, List.map_cons, hmember.1, ih]

theorem compileProperties_eq_ok {members : List (String × Json)}
    {properties : List (String × Schema)}
    (h : compileProperties engine location members = .ok properties) :
    CompiledMembers engine members properties := by
  induction members generalizing properties with
  | nil =>
    simp only [compileProperties, Except.ok.injEq] at h
    rw [← h]
    exact .nil
  | cons member rest ih =>
    obtain ⟨name, value⟩ := member
    simp only [compileProperties] at h
    cases hvalue : compileAt engine (location ++ "/properties/" ++ name) value with
    | error fault => simp [hvalue] at h
    | ok schema =>
      simp only [hvalue] at h
      cases hrest : compileProperties engine location rest with
      | error fault => simp [hrest, Except.map] at h
      | ok others =>
        simp only [hrest, Except.map, Except.ok.injEq] at h
        rw [← h]
        exact .cons ⟨rfl, _, hvalue⟩ (ih hrest)

/-- The names of all keywords. -/
def keywordNames : List String :=
  ["type", "required", "minItems", "maxItems", "minLength", "maxLength", "minimum", "maximum",
    "pattern", "properties", "additionalProperties", "items"]

/-- What one member of a schema document does to the rules read so far. -/
inductive Sets (engine : PatternEngine) (r : SchemaRules Schema) (key : String) (value : Json) :
    SchemaRules Schema → Prop
  | type {types : List TypeName} (key_eq : key = "type")
      (names_eq : typeNames? value = some (types.map TypeName.name)) :
      Sets engine r key value { r with types }
  | required {required : List String} (key_eq : key = "required")
      (value_eq : value = .arr (required.map .str)) : Sets engine r key value { r with required }
  | minItems {n : Nat} (key_eq : key = "minItems") (value_eq : value = .ofNat n) :
      Sets engine r key value { r with minItems := some n }
  | maxItems {n : Nat} (key_eq : key = "maxItems") (value_eq : value = .ofNat n) :
      Sets engine r key value { r with maxItems := some n }
  | minLength {n : Nat} (key_eq : key = "minLength") (value_eq : value = .ofNat n) :
      Sets engine r key value { r with minLength := some n }
  | maxLength {n : Nat} (key_eq : key = "maxLength") (value_eq : value = .ofNat n) :
      Sets engine r key value { r with maxLength := some n }
  | minimum {n : Number} (key_eq : key = "minimum") (value_eq : value = .num n) :
      Sets engine r key value { r with minimum := some n }
  | maximum {n : Number} (key_eq : key = "maximum") (value_eq : value = .num n) :
      Sets engine r key value { r with maximum := some n }
  | pattern {source : String} {isMatch : String → Bool} (key_eq : key = "pattern")
      (value_eq : value = .str source) (read_eq : engine source = some isMatch) :
      Sets engine r key value { r with pattern := some ⟨source, isMatch⟩ }
  | properties {members : List (String × Json)} {properties : List (String × Schema)}
      (key_eq : key = "properties") (value_eq : value = .obj members)
      (compiled : CompiledMembers engine members properties) :
      Sets engine r key value { r with properties }
  | additional {schema : Schema} (key_eq : key = "additionalProperties")
      (compiled : Compiled engine value schema) :
      Sets engine r key value { r with additional := some schema }
  | items {schema : Schema} (key_eq : key = "items") (compiled : Compiled engine value schema) :
      Sets engine r key value { r with items := some schema }
  /-- a member that is no keyword -/
  | other (key_ne : key ∉ keywordNames) : Sets engine r key value r

/-- The value that a step of a reading yields before the rest of the reading. -/
theorem exists_of_bind_eq_ok {α β : Type} {first : Except SchemaError α}
    {next : α → Except SchemaError β} {b : β} (h : first >>= next = .ok b) :
    ∃ a, first = .ok a ∧ next a = .ok b := by
  cases first with
  | error fault => exact absurd h nofun
  | ok a => exact ⟨a, rfl, h⟩

theorem sets_of_setKeyword (h : setKeyword engine location r key value = .ok r')
    (hkey : key ∉ ["properties", "additionalProperties", "items"]) :
    Sets engine r key value r' := by
  unfold setKeyword at h
  split at h
  · obtain ⟨names, hnames, h⟩ := exists_of_bind_eq_ok h
    obtain ⟨types, htypes, h⟩ := exists_of_bind_eq_ok h
    cases h
    exact .type rfl (typesOf_eq_ok htypes ▸ expecting_eq_ok hnames)
  · obtain ⟨names, hnames, h⟩ := exists_of_bind_eq_ok h
    obtain ⟨values, hvalues, htexts⟩ := Option.bind_eq_some_iff.1 (expecting_eq_ok hnames)
    cases h
    exact .required rfl (by rw [items?_eq_some hvalues, texts?_eq_some htexts])
  · obtain ⟨n, hn, h⟩ := exists_of_bind_eq_ok h
    cases h
    exact .minItems rfl (count_eq_ok hn)
  · obtain ⟨n, hn, h⟩ := exists_of_bind_eq_ok h
    cases h
    exact .maxItems rfl (count_eq_ok hn)
  · obtain ⟨n, hn, h⟩ := exists_of_bind_eq_ok h
    cases h
    exact .minLength rfl (count_eq_ok hn)
  · obtain ⟨n, hn, h⟩ := exists_of_bind_eq_ok h
    cases h
    exact .maxLength rfl (count_eq_ok hn)
  · obtain ⟨n, hn, h⟩ := exists_of_bind_eq_ok h
    cases h
    exact .minimum rfl (number?_eq_some (expecting_eq_ok hn))
  · obtain ⟨n, hn, h⟩ := exists_of_bind_eq_ok h
    cases h
    exact .maximum rfl (number?_eq_some (expecting_eq_ok hn))
  · obtain ⟨source, hsource, h⟩ := exists_of_bind_eq_ok h
    split at h
    · next p hp =>
      cases h
      exact .pattern rfl (text?_eq_some (expecting_eq_ok hsource)) hp
    · exact absurd h nofun
  · cases h
    refine .other ?_
    simp_all [keywordNames]

/-- Reading goes on from what the first member does. -/
theorem exists_sets {rest : List (String × Json)} {schema : Schema}
    (h : compileRules engine location r ((key, value) :: rest) = .ok schema) :
    ∃ r', Sets engine r key value r' ∧ compileRules engine location r' rest = .ok schema := by
  unfold compileRules at h
  split at h
  · split at h
    · next properties hproperties =>
      cases value with
      | obj members => exact ⟨_, .properties rfl rfl (compileProperties_eq_ok hproperties), h⟩
      | _ => exact absurd hproperties nofun
    · exact absurd h nofun
  · split at h
    · next schema hschema => exact ⟨_, .additional rfl ⟨_, hschema⟩, h⟩
    · exact absurd h nofun
  · split at h
    · next schema hschema => exact ⟨_, .items rfl ⟨_, hschema⟩, h⟩
    · exact absurd h nofun
  · split at h
    · next hproperties hadditional hitems _ r' hr' =>
      refine ⟨r', sets_of_setKeyword hr' ?_, h⟩
      simp only [List.mem_cons, List.not_mem_nil, or_false, not_or]
      exact ⟨hproperties, hadditional, hitems⟩
    · exact absurd h nofun

/-! ## All keywords -/

/-- What rules hold of the keywords they were read from. -/
structure Reads (engine : PatternEngine) (keywords : List (String × Json))
    (r : SchemaRules Schema) : Prop where
  types : (keyword? "type" keywords = none ∧ r.types = []) ∨
    (keyword? "type" keywords).bind typeNames? = some (r.types.map TypeName.name)
  required : (keyword? "required" keywords = none ∧ r.required = []) ∨
    keyword? "required" keywords = some (.arr (r.required.map .str))
  minItems : keyword? "minItems" keywords = r.minItems.map .ofNat
  maxItems : keyword? "maxItems" keywords = r.maxItems.map .ofNat
  minLength : keyword? "minLength" keywords = r.minLength.map .ofNat
  maxLength : keyword? "maxLength" keywords = r.maxLength.map .ofNat
  minimum : keyword? "minimum" keywords = r.minimum.map .num
  maximum : keyword? "maximum" keywords = r.maximum.map .num
  pattern : keyword? "pattern" keywords = r.pattern.map (.str ·.source) ∧
    ∀ p, r.pattern = some p → engine p.source = some p.isMatch
  properties : (keyword? "properties" keywords = none ∧ r.properties = []) ∨
    ∃ members, keyword? "properties" keywords = some (.obj members) ∧
      CompiledMembers engine members r.properties
  additional : Option.Rel (Compiled engine) (keyword? "additionalProperties" keywords) r.additional
  items : Option.Rel (Compiled engine) (keyword? "items" keywords) r.items

/-- Before anything is read, rules hold of no keywords. -/
theorem Reads.empty : Reads engine [] {} where
  types := Or.inl ⟨rfl, rfl⟩
  required := Or.inl ⟨rfl, rfl⟩
  minItems := rfl
  maxItems := rfl
  minLength := rfl
  maxLength := rfl
  minimum := rfl
  maximum := rfl
  pattern := ⟨rfl, nofun⟩
  properties := Or.inl ⟨rfl, rfl⟩
  additional := .none
  items := .none

/-- One more member changes what the rules hold of its own keyword, and of no other. -/
theorem Reads.step {keywords : List (String × Json)} (h : Reads engine keywords r)
    (hsets : Sets engine r key value r') : Reads engine (keywords ++ [(key, value)]) r' := by
  obtain ⟨htypes, hrequired, hminItems, hmaxItems, hminLength, hmaxLength, hminimum, hmaximum,
    hpattern, hproperties, hadditional, hitems⟩ := h
  cases hsets with
  | other key_ne =>
    -- the name of every keyword differs from the key
    simp only [keywordNames, List.mem_cons, List.not_mem_nil, or_false, not_or] at key_ne
    constructor <;> simp_all [keyword?_concat]
  | _ key_eq =>
    -- one field is that of the constructor, and the others are as before
    subst key_eq
    constructor <;> simp_all [keyword?_concat]

/-- Rules read to the end hold what the keywords before and the remaining ones say. -/
theorem exists_reads_of_compileRules {keywords rest : List (String × Json)} {schema : Schema}
    (hr : Reads engine keywords r) (h : compileRules engine location r rest = .ok schema) :
    ∃ r', schema = .rules r' ∧ Reads engine (keywords ++ rest) r' := by
  induction rest generalizing r keywords with
  | nil =>
    simp only [compileRules, Except.ok.injEq] at h
    exact ⟨r, h.symm, by rwa [List.append_nil]⟩
  | cons member rest ih =>
    obtain ⟨r', hsets, hrest⟩ := exists_sets h
    obtain ⟨last, hschema, hlast⟩ := ih (hr.step hsets) hrest
    exact ⟨last, hschema, by rwa [List.append_cons]⟩

/-- **The rules of a document hold what its keywords say.** -/
theorem exists_reads {keywords : List (String × Json)} {schema : Schema}
    (h : compileAt engine location (.obj keywords) = .ok schema) :
    ∃ r, schema = .rules r ∧ Reads engine keywords r := by
  rw [compileAt] at h
  exact exists_reads_of_compileRules .empty h

end Schema

end GuideCheck
