import GuideCheck.Proofs.Compilation
import GuideCheck.Proofs.NormalForm

set_option autoImplicit false

/-! # The first fault of a schema document

`Schema.WellFormed` says which documents are schemas, and `Schema.Fault` what is wrong with the
others: each fault has a place, the keys that lead to it, and the error that reports it. Places are
ordered like the words of a dictionary, with the bytes of keys for letters, which is the order in
which keywords and properties are met when each is followed to its end before the next.

Reading a document yields a schema exactly if the document is well formed, and otherwise the error
of the fault with the first place (`Schema.compile_iff`). The proof goes through the document once:
what is read of a part tells of the faults of that part (`Schema.Tells`), and faults of parts that
are read later have later places. -/

namespace GuideCheck

/-! ## Well-formed documents -/

namespace Schema

/-- Whether a name is that of a type. -/
def IsTypeName (name : String) : Prop := ∃ t : TypeName, t.name = name

/-- Whether the value of a `type` keyword is a name, or an array of names. -/
def ListsNames (value : Json) (names : List String) : Prop :=
  (∃ name, value = .str name ∧ names = [name]) ∨ value = .arr (names.map .str)

end Schema

/-- What the value of a keyword must be. -/
def Keyword.Admits (keyword : Keyword) (value : Json) : Prop :=
  match keyword with
  | type => ∃ names, Schema.ListsNames value names
  | properties => ∃ documents, value = .obj documents
  | required => ∃ names : List String, value = .arr (names.map .str)
  | minItems | maxItems | minLength | maxLength => ∃ n : Nat, n < 2 ^ 64 ∧ value = .ofNat n
  | minimum | maximum => ∃ n, value = .num n
  | pattern => ∃ source, value = .str source

theorem Keyword.name_injective : Function.Injective Keyword.name := by
  intro keyword other h
  cases keyword <;> cases other <;> first | rfl | exact absurd h (by decide)

namespace Schema

/-- Whether a document is a schema: a boolean, or an object in which the keywords have the values
    that they must have, types are known, the engine reads the patterns, and the documents inside
    are schemas. -/
inductive WellFormed (engine : PatternEngine) : Json → Prop
  | bool (accepts : Bool) : WellFormed engine (.bool accepts)
  | obj {members : List (String × Json)}
      (admitted : ∀ (keyword : Keyword) (value : Json), (keyword.name, value) ∈ members →
        keyword.Admits value)
      (known : ∀ types names, ("type", types) ∈ members → ListsNames types names →
        ∀ name ∈ names, IsTypeName name)
      (readable : ∀ source, ("pattern", .str source) ∈ members →
        ∃ isMatch, engine source = some isMatch)
      (properties : ∀ documents, ("properties", .obj documents) ∈ members →
        ∀ property ∈ documents, WellFormed engine property.2)
      (additional : ∀ document, ("additionalProperties", document) ∈ members →
        WellFormed engine document)
      (items : ∀ document, ("items", document) ∈ members → WellFormed engine document) :
      WellFormed engine (.obj members)

/-! ## Faults -/

/-- What is wrong with the value of a keyword, faults of documents in it apart. Whether a `type`
    keyword holds only strings comes before whether it names types. -/
inductive OwnFault (engine : PatternEngine) (location : String) :
    String → Json → SchemaError → Prop
  | form {keyword : Keyword} {value : Json} (refused : ¬ keyword.Admits value) :
      OwnFault engine location keyword.name value (.invalidKeyword location keyword)
  | unknownType {types : Json} {before after : List String} {name : String}
      (listed : ListsNames types (before ++ name :: after))
      (known : ∀ other ∈ before, IsTypeName other) (unknown : ¬ IsTypeName name) :
      OwnFault engine location "type" types (.unknownType location name)
  | pattern {source : String} (unread : engine source = none) :
      OwnFault engine location "pattern" (.str source) (.pattern location)

mutual

/-- The faults of a document found at a location: the keys that lead to them, and the errors. -/
inductive Fault (engine : PatternEngine) : String → Json → List String → SchemaError → Prop
  | notASchema {location : String} {document : Json} (bool : ∀ accepts, document ≠ .bool accepts)
      (obj : ∀ members, document ≠ .obj members) :
      Fault engine location document [] (.notASchema location)
  | member {location key : String} {members : List (String × Json)} {value : Json}
      {path : List String} {e : SchemaError} (mem : (key, value) ∈ members)
      (inner : MemberFault engine location key value path e) :
      Fault engine location (.obj members) (key :: path) e

/-- The faults of a member of a document: of the keyword itself, and of the documents in it. -/
inductive MemberFault (engine : PatternEngine) :
    String → String → Json → List String → SchemaError → Prop
  | own {location key : String} {value : Json} {e : SchemaError}
      (fault : OwnFault engine location key value e) : MemberFault engine location key value [] e
  | property {location name : String} {documents : List (String × Json)} {document : Json}
      {path : List String} {e : SchemaError} (mem : (name, document) ∈ documents)
      (inner : Fault engine (location ++ "/properties/" ++ name) document path e) :
      MemberFault engine location "properties" (.obj documents) (name :: path) e
  | additional {location : String} {document : Json} {path : List String} {e : SchemaError}
      (inner : Fault engine (location ++ "/additionalProperties") document path e) :
      MemberFault engine location "additionalProperties" document path e
  | items {location : String} {document : Json} {path : List String} {e : SchemaError}
      (inner : Fault engine (location ++ "/items") document path e) :
      MemberFault engine location "items" document path e

end

/-- Whether a place comes before another one: by the first key that differs, and before the places
    inside it. -/
def Precedes (path other : List String) : Prop := List.Lex ByteLt path other

/-- Whether an error reports the fault of a document that has the first place. -/
def IsFirstFault (engine : PatternEngine) (document : Json) (e : SchemaError) : Prop :=
  ∃ path, Fault engine "" document path e ∧
    ∀ other e', Fault engine "" document other e' → ¬ Precedes other path

/-! ## Values of keywords -/

theorem ofName?_eq_none_iff {name : String} : TypeName.ofName? name = none ↔ ¬ IsTypeName name := by
  constructor
  · rintro hnone ⟨t, rfl⟩
    cases t <;> revert hnone <;> decide +kernel
  · intro hunknown
    rw [Option.eq_none_iff_forall_not_mem]
    intro t ht
    exact hunknown ⟨t, (TypeName.ofName?_eq_some ht).symm⟩

theorem texts?_map_str (texts : List String) : texts? (texts.map .str) = some texts := by
  induction texts with
  | nil => rfl
  | cons text rest ih =>
    rw [texts?] at ih ⊢
    rw [List.map_cons, List.mapM_cons, ih]
    rfl

theorem typeNames?_eq_some_iff {value : Json} {names : List String} :
    typeNames? value = some names ↔ ListsNames value names := by
  refine ⟨typeNames?_eq_some, ?_⟩
  rintro (⟨name, rfl, rfl⟩ | rfl)
  · rfl
  · exact texts?_map_str names

theorem ListsNames.unique {value : Json} {names others : List String} (h : ListsNames value names)
    (h' : ListsNames value others) : names = others :=
  Option.some.inj ((typeNames?_eq_some_iff.2 h).symm.trans (typeNames?_eq_some_iff.2 h'))

theorem typeNames?_eq_none_iff {value : Json} :
    typeNames? value = none ↔ ¬ Keyword.type.Admits value := by
  simp only [Keyword.Admits, ← typeNames?_eq_some_iff, Option.eq_none_iff_forall_ne_some,
    not_exists]

theorem text?_eq_some_iff {value : Json} {text : String} :
    value.text? = some text ↔ value = .str text :=
  ⟨text?_eq_some, by rintro rfl; rfl⟩

theorem texts?_eq_none_iff {value : Json} :
    value.items?.bind texts? = none ↔ ¬ Keyword.required.Admits value := by
  have hsome (names : List String) :
      value.items?.bind texts? = some names ↔ value = .arr (names.map .str) := by
    constructor
    · intro h
      obtain ⟨values, hvalues, htexts⟩ := Option.bind_eq_some_iff.1 h
      rw [items?_eq_some hvalues, texts?_eq_some htexts]
    · rintro rfl
      exact texts?_map_str names
  simp only [Keyword.Admits, ← hsome, Option.eq_none_iff_forall_ne_some, not_exists]

theorem natural?_eq_none_iff {value : Json} (h : value.IsNormal) :
    value.number?.bind Number.natural? = none ↔ ¬ ∃ n : Nat, n < 2 ^ 64 ∧ value = .ofNat n := by
  have hsome (n : Nat) :
      value.number?.bind Number.natural? = some n ↔ n < 2 ^ 64 ∧ value = .ofNat n := by
    constructor
    · intro hn
      obtain ⟨number, hnumber, hnatural⟩ := Option.bind_eq_some_iff.1 hn
      rw [number?_eq_some hnumber, natural?_eq_some hnatural] at h ⊢
      cases h with
      | int hadmitted => exact ⟨by have := hadmitted.2; omega, rfl⟩
    · rintro ⟨-, rfl⟩
      simp [Json.ofNat, Json.number?, Number.natural?]
  simp only [← hsome, Option.eq_none_iff_forall_ne_some, not_exists]

theorem number?_eq_none_iff {value : Json} : value.number? = none ↔ ¬ ∃ n, value = .num n := by
  cases value <;> simp [Json.number?]

theorem text?_eq_none_iff {value : Json} :
    value.text? = none ↔ ¬ Keyword.pattern.Admits value := by
  cases value <;> simp [Json.text?, Keyword.Admits]

/-- The types of names are found unless one is unknown, and then the first of these is the fault. -/
theorem typesOf_eq_error_iff {location : String} {names : List String} {e : SchemaError} :
    typesOf location names = .error e ↔ ∃ before name after, names = before ++ name :: after ∧
      (∀ other ∈ before, IsTypeName other) ∧ ¬ IsTypeName name ∧
        e = .unknownType location name := by
  induction names with
  | nil => simp [typesOf]
  | cons name rest ih =>
    rw [typesOf]
    cases hname : TypeName.ofName? name with
    | none =>
      have hunknown := ofName?_eq_none_iff.1 hname
      constructor
      · rintro ⟨⟩
        exact ⟨[], name, rest, rfl, List.forall_mem_nil _, hunknown, rfl⟩
      · rintro ⟨before, other, after, heq, hknown, -, rfl⟩
        cases before with
        | nil => cases heq; rfl
        | cons first before =>
          cases heq
          exact absurd (hknown name List.mem_cons_self) hunknown
    | some t =>
      have hknown : IsTypeName name := ⟨t, (TypeName.ofName?_eq_some hname).symm⟩
      have hmap : (typesOf location rest).map (t :: ·) = .error e ↔
          typesOf location rest = .error e := by
        cases typesOf location rest <;> simp [Except.map]
      simp only [hmap, ih]
      constructor
      · rintro ⟨before, other, after, rfl, hbefore, hother⟩
        exact ⟨name :: before, other, after, rfl, List.forall_mem_cons.2 ⟨hknown, hbefore⟩, hother⟩
      · rintro ⟨before, other, after, heq, hbefore, hunknown, hother⟩
        cases before with
        | nil => cases heq; exact absurd hknown hunknown
        | cons first before =>
          cases heq
          exact ⟨before, other, after, rfl, (List.forall_mem_cons.1 hbefore).2, hunknown, hother⟩

/-! ## Faults of single keywords -/

section

variable {engine : PatternEngine} {location key : String} {value : Json} {e : SchemaError}
  {r : SchemaRules Schema}

theorem ownFault_name_iff {keyword : Keyword} (htype : keyword ≠ .type)
    (hpattern : keyword ≠ .pattern) : OwnFault engine location keyword.name value e ↔
      ¬ keyword.Admits value ∧ e = .invalidKeyword location keyword := by
  constructor
  · intro h
    generalize hname : keyword.name = key at h
    cases h with
    | form refused =>
      cases Keyword.name_injective hname
      exact ⟨refused, rfl⟩
    | unknownType =>
      have heq : keyword = .type := Keyword.name_injective hname
      exact absurd heq htype
    | pattern =>
      have heq : keyword = .pattern := Keyword.name_injective hname
      exact absurd heq hpattern
  · rintro ⟨refused, rfl⟩
    exact .form refused

theorem ownFault_type_iff : OwnFault engine location "type" value e ↔
    (¬ Keyword.type.Admits value ∧ e = .invalidKeyword location .type) ∨
      ∃ names, ListsNames value names ∧ typesOf location names = .error e := by
  simp only [typesOf_eq_error_iff]
  constructor
  · intro h
    generalize hname : "type" = key at h
    cases h with
    | @form keyword _ refused =>
      have heq : .type = keyword := Keyword.name_injective hname
      rw [← heq] at refused ⊢
      exact .inl ⟨refused, rfl⟩
    | unknownType listed known unknown =>
      exact .inr ⟨_, listed, _, _, _, rfl, known, unknown, rfl⟩
    | pattern => exact absurd hname (by decide)
  · rintro (⟨refused, rfl⟩ | ⟨_, listed, _, _, _, rfl, known, unknown, rfl⟩)
    · have hform : OwnFault engine location Keyword.type.name value
          (.invalidKeyword location .type) := .form refused
      exact hform
    · exact .unknownType listed known unknown

theorem ownFault_pattern_iff : OwnFault engine location "pattern" value e ↔
    (¬ Keyword.pattern.Admits value ∧ e = .invalidKeyword location .pattern) ∨
      ∃ source, value = .str source ∧ engine source = none ∧ e = .pattern location := by
  constructor
  · intro h
    generalize hname : "pattern" = key at h
    cases h with
    | @form keyword _ refused =>
      have heq : .pattern = keyword := Keyword.name_injective hname
      rw [← heq] at refused ⊢
      exact .inl ⟨refused, rfl⟩
    | unknownType => exact absurd hname (by decide)
    | pattern unread => exact .inr ⟨_, rfl, unread, rfl⟩
  · rintro (⟨refused, rfl⟩ | ⟨source, rfl, unread, rfl⟩)
    · have hform : OwnFault engine location Keyword.pattern.name value
          (.invalidKeyword location .pattern) := .form refused
      exact hform
    · exact .pattern unread

theorem not_ownFault_of_forall_ne (h : ∀ keyword : Keyword, key ≠ keyword.name) :
    ¬ OwnFault engine location key value e := by
  intro hfault
  cases hfault with
  | @form keyword => exact h keyword rfl
  | unknownType => exact h .type rfl
  | pattern => exact h .pattern rfl

/-- Where a value has to have a form, the step fails if it has none, or if the next one fails. -/
theorem expecting_bind_eq_error_iff {α β : Type} {keyword : Keyword} {result : Option α}
    {next : α → Except SchemaError β} : expecting location keyword result >>= next = .error e ↔
      (result = none ∧ e = .invalidKeyword location keyword) ∨
        ∃ a, result = some a ∧ next a = .error e := by
  cases result with
  | none =>
    show Except.error _ = _ ↔ _
    simp [eq_comm]
  | some a =>
    show next a = _ ↔ _
    simp

/-- The keys of members that hold documents. -/
def documentKeys : List String := ["properties", "additionalProperties", "items"]

/-- A keyword that asks for a form only fails exactly if its value does not have it. -/
theorem expecting_set_eq_error_iff {α : Type} {keyword : Keyword} {result : Option α}
    (set : α → SchemaRules Schema) (htype : keyword ≠ .type) (hpattern : keyword ≠ .pattern)
    (hnone : result = none ↔ ¬ keyword.Admits value) :
    (expecting location keyword result >>= fun a => pure (set a)) = .error e ↔
      OwnFault engine location keyword.name value e := by
  rw [ownFault_name_iff htype hpattern, expecting_bind_eq_error_iff, hnone]
  exact or_iff_left (by rintro ⟨a, -, ⟨⟩⟩)

/-- A keyword without documents in it fails exactly by its own fault. -/
theorem setKeyword_eq_error_iff (hvalue : value.IsNormal) (hkey : key ∉ documentKeys) :
    setKeyword engine location r key value = .error e ↔ OwnFault engine location key value e := by
  have hcount := natural?_eq_none_iff hvalue
  unfold setKeyword
  split
  · rw [ownFault_type_iff, expecting_bind_eq_error_iff, typeNames?_eq_none_iff]
    refine or_congr Iff.rfl (exists_congr fun names => and_congr typeNames?_eq_some_iff ?_)
    cases typesOf location names with
    | ok types => exact ⟨nofun, nofun⟩
    | error fault => exact ⟨by rintro ⟨⟩; rfl, by rintro ⟨⟩; rfl⟩
  · exact expecting_set_eq_error_iff _ nofun nofun texts?_eq_none_iff
  · exact expecting_set_eq_error_iff _ nofun nofun hcount
  · exact expecting_set_eq_error_iff _ nofun nofun hcount
  · exact expecting_set_eq_error_iff _ nofun nofun hcount
  · exact expecting_set_eq_error_iff _ nofun nofun hcount
  · exact expecting_set_eq_error_iff _ nofun nofun number?_eq_none_iff
  · exact expecting_set_eq_error_iff _ nofun nofun number?_eq_none_iff
  · rw [ownFault_pattern_iff, expecting_bind_eq_error_iff, text?_eq_none_iff]
    refine or_congr Iff.rfl (exists_congr fun source => and_congr text?_eq_some_iff ?_)
    cases engine source with
    | none => exact ⟨by rintro ⟨⟩; exact ⟨rfl, rfl⟩, by rintro ⟨-, rfl⟩; rfl⟩
    | some p => exact ⟨nofun, nofun⟩
  · refine ⟨nofun, fun h => absurd h (not_ownFault_of_forall_ne fun keyword hname => ?_)⟩
    -- a key that is none of the nine is not the name of a keyword either
    cases keyword <;> simp_all [Keyword.name, documentKeys]

end

/-! ## The order of places -/

theorem precedes_iff {path other : List String} : Precedes path other ↔ path < other := by
  have heq : ByteLt = (· < · : String → String → Prop) := by
    funext a b
    exact propext byteLt_iff
  rw [Precedes, heq]
  exact Iff.rfl

theorem precedes_cons_iff {key : String} {path other : List String} :
    Precedes (key :: path) (key :: other) ↔ Precedes path other := by
  simp [precedes_iff]

theorem not_precedes_of_byteLt {key later : String} (h : ByteLt key later)
    (path other : List String) : ¬ Precedes (later :: path) (key :: other) := by
  rw [precedes_iff, List.cons_lt_cons_iff]
  rw [byteLt_iff] at h
  rintro (hlt | ⟨rfl, -⟩)
  · exact lt_asymm h hlt
  · exact lt_irrefl _ h

/-! ## What a result tells of faults -/

/-- Whether a result tells of some faults: there are none where it is a value, and otherwise it is
    the error of a fault with the first place. No two faults have one place. -/
structure Tells {α : Type} (result : Except SchemaError α)
    (faults : List String → SchemaError → Prop) : Prop where
  ok : ∀ a, result = .ok a → ∀ path e, ¬ faults path e
  error : ∀ e, result = .error e →
    ∃ path, faults path e ∧ ∀ other e', faults other e' → ¬ Precedes other path
  unique : ∀ path e e', faults path e → faults path e' → e = e'

namespace Tells

variable {α β : Type} {first : Except SchemaError α} {whole : Except SchemaError β}
  {faults later : List String → SchemaError → Prop}

theorem congr (h : Tells first faults) (hiff : ∀ path e, later path e ↔ faults path e) :
    Tells first later where
  ok := fun a ha path e hlater => h.ok a ha path e ((hiff path e).1 hlater)
  error := fun e he => by
    obtain ⟨path, hpath, hleast⟩ := h.error e he
    exact ⟨path, (hiff path e).2 hpath, fun other e' hlater =>
      hleast other e' ((hiff other e').1 hlater)⟩
  unique := fun path e e' hlater hlater' =>
    h.unique path e e' ((hiff path e).1 hlater) ((hiff path e').1 hlater')

theorem map (h : Tells first faults) (f : α → β) : Tells (first.map f) faults where
  ok := by
    intro b hb
    cases hresult : first with
    | ok a => exact h.ok a hresult
    | error fault =>
      rw [hresult] at hb
      cases hb
  error := by
    intro e he
    cases hresult : first with
    | ok a =>
      rw [hresult] at he
      cases he
    | error fault =>
      rw [hresult] at he
      cases he
      exact h.error _ hresult
  unique := h.unique

/-- A result that fails exactly by the faults of a place tells of them. -/
theorem of_iff {own : SchemaError → Prop} (h : ∀ e, first = .error e ↔ own e) :
    Tells first fun path e => path = [] ∧ own e where
  ok := by
    rintro a rfl path e ⟨-, he⟩
    cases (h e).2 he
  error := by
    intro e he
    refine ⟨[], ⟨rfl, (h e).1 he⟩, ?_⟩
    rintro other e' ⟨rfl, -⟩
    exact List.not_lex_nil
  unique := by
    rintro path e e' ⟨-, he⟩ ⟨-, he'⟩
    exact Except.error.inj (((h e).2 he).symm.trans ((h e').2 he'))

/-- Where the first part fails, the whole fails, and the places of other parts come later. -/
theorem seq {key : String} (hfirst : Tells first faults)
    (hok : ∀ a, first = .ok a → Tells whole later)
    (herror : ∀ e, first = .error e → whole = .error e)
    (hunique : ∀ path e e', later path e → later path e' → e = e')
    (hlater : ∀ path e, later path e → ∃ other rest, path = other :: rest ∧ ByteLt key other) :
    Tells whole fun path e => (∃ rest, path = key :: rest ∧ faults rest e) ∨ later path e where
  ok := by
    rintro b hb path e (⟨rest, -, he⟩ | he)
    · cases hresult : first with
      | ok a => exact hfirst.ok a hresult rest e he
      | error fault => cases hb.symm.trans (herror fault hresult)
    · cases hresult : first with
      | ok a => exact (hok a hresult).ok b hb path e he
      | error fault => cases hb.symm.trans (herror fault hresult)
  error := by
    intro e he
    cases hresult : first with
    | ok a =>
      obtain ⟨path, hpath, hleast⟩ := (hok a hresult).error e he
      refine ⟨path, .inr hpath, ?_⟩
      rintro other e' (⟨rest, -, hother⟩ | hother)
      · exact absurd hother (hfirst.ok a hresult rest e')
      · exact hleast other e' hother
    | error fault =>
      cases (herror fault hresult).symm.trans he
      obtain ⟨path, hpath, hleast⟩ := hfirst.error _ hresult
      refine ⟨key :: path, .inl ⟨path, rfl, hpath⟩, ?_⟩
      rintro other e' (⟨rest, rfl, hother⟩ | hother)
      · rw [precedes_cons_iff]
        exact hleast rest e' hother
      · obtain ⟨k, rest, rfl, hk⟩ := hlater other e' hother
        exact not_precedes_of_byteLt hk rest path
  unique := by
    rintro path e e' (⟨rest, rfl, he⟩ | he) (⟨rest', hpath, he'⟩ | he')
    · cases hpath
      exact hfirst.unique rest e e' he he'
    · obtain ⟨k, rest', hpath, hk⟩ := hlater _ _ he'
      cases hpath
      exact absurd (byteLt_iff.1 hk) (lt_irrefl _)
    · obtain ⟨k, rest, rfl, hk⟩ := hlater _ _ he
      cases hpath
      exact absurd (byteLt_iff.1 hk) (lt_irrefl _)
    · exact hunique path e e' he he'

end Tells

/-! ## Members -/

section

variable {engine : PatternEngine} {location key : String} {value : Json} {path : List String}
  {e : SchemaError}

/-- A keyword without documents in it has only faults of its own. -/
theorem memberFault_iff_of_notMem (h : key ∉ documentKeys) :
    MemberFault engine location key value path e ↔
      path = [] ∧ OwnFault engine location key value e := by
  constructor
  · intro hfault
    cases hfault with
    | own fault => exact ⟨rfl, fault⟩
    | property => exact absurd (by decide) h
    | additional => exact absurd (by decide) h
    | items => exact absurd (by decide) h
  · rintro ⟨rfl, fault⟩
    exact .own fault

/-- The faults of named documents, each under its name. -/
def NamedFault (engine : PatternEngine) (location : String) (documents : List (String × Json))
    (path : List String) (e : SchemaError) : Prop :=
  ∃ name document rest, path = name :: rest ∧ (name, document) ∈ documents ∧
    Fault engine (location ++ "/properties/" ++ name) document rest e

theorem memberFault_properties_iff : MemberFault engine location "properties" value path e ↔
    (path = [] ∧ OwnFault engine location Keyword.properties.name value e) ∨
      ∃ documents, value = .obj documents ∧ NamedFault engine location documents path e := by
  constructor
  · intro hfault
    generalize hkey : "properties" = key at hfault
    cases hfault with
    | own fault =>
      cases hkey
      exact .inl ⟨rfl, fault⟩
    | property mem inner => exact .inr ⟨_, rfl, _, _, _, rfl, mem, inner⟩
    | additional => exact absurd hkey (by decide)
    | items => exact absurd hkey (by decide)
  · rintro (⟨rfl, fault⟩ | ⟨documents, rfl, name, document, rest, rfl, mem, inner⟩)
    · exact .own fault
    · exact .property mem inner

theorem memberFault_additional_iff :
    MemberFault engine location "additionalProperties" value path e ↔
      Fault engine (location ++ "/additionalProperties") value path e := by
  constructor
  · intro hfault
    generalize hkey : "additionalProperties" = key at hfault
    cases hfault with
    | own fault =>
      refine absurd fault (not_ownFault_of_forall_ne fun keyword hname => ?_)
      cases keyword <;> exact absurd (hkey.trans hname) (by decide)
    | property => exact absurd hkey (by decide)
    | additional inner => exact inner
    | items => exact absurd hkey (by decide)
  · exact .additional

theorem memberFault_items_iff :
    MemberFault engine location "items" value path e ↔
      Fault engine (location ++ "/items") value path e := by
  constructor
  · intro hfault
    generalize hkey : "items" = key at hfault
    cases hfault with
    | own fault =>
      refine absurd fault (not_ownFault_of_forall_ne fun keyword hname => ?_)
      cases keyword <;> exact absurd (hkey.trans hname) (by decide)
    | property => exact absurd hkey (by decide)
    | additional => exact absurd hkey (by decide)
    | items inner => exact inner
  · exact .items

theorem fault_obj_iff {members : List (String × Json)} :
    Fault engine location (.obj members) path e ↔
      ∃ key value rest, path = key :: rest ∧ (key, value) ∈ members ∧
        MemberFault engine location key value rest e := by
  constructor
  · intro hfault
    cases hfault with
    | notASchema _ obj => exact absurd rfl (obj members)
    | member mem inner => exact ⟨_, _, _, rfl, mem, inner⟩
  · rintro ⟨key, value, rest, rfl, mem, inner⟩
    exact .member mem inner

end

/-! ## What is read of documents -/

section

variable {engine : PatternEngine} {location : String} {documents members : List (String × Json)}

theorem namedFault_cons_iff {name : String} {document : Json} {path : List String}
    {e : SchemaError} : NamedFault engine location ((name, document) :: documents) path e ↔
      (∃ rest, path = name :: rest ∧
        Fault engine (location ++ "/properties/" ++ name) document rest e) ∨
        NamedFault engine location documents path e := by
  constructor
  · rintro ⟨other, value, rest, rfl, mem, inner⟩
    rcases List.mem_cons.1 mem with hfirst | hmem
    · cases hfirst
      exact .inl ⟨rest, rfl, inner⟩
    · exact .inr ⟨other, value, rest, rfl, hmem, inner⟩
  · rintro (⟨rest, rfl, inner⟩ | ⟨other, value, rest, rfl, mem, inner⟩)
    · exact ⟨name, document, rest, rfl, List.mem_cons_self, inner⟩
    · exact ⟨other, value, rest, rfl, List.mem_cons_of_mem _ mem, inner⟩

theorem fault_obj_cons_iff {key : String} {value : Json} {path : List String} {e : SchemaError} :
    Fault engine location (.obj ((key, value) :: members)) path e ↔
      (∃ rest, path = key :: rest ∧ MemberFault engine location key value rest e) ∨
        Fault engine location (.obj members) path e := by
  simp only [fault_obj_iff]
  constructor
  · rintro ⟨other, part, rest, rfl, mem, inner⟩
    rcases List.mem_cons.1 mem with hfirst | hmem
    · cases hfirst
      exact .inl ⟨rest, rfl, inner⟩
    · exact .inr ⟨other, part, rest, rfl, hmem, inner⟩
  · rintro (⟨rest, rfl, inner⟩ | ⟨other, part, rest, rfl, mem, inner⟩)
    · exact ⟨key, value, rest, rfl, List.mem_cons_self, inner⟩
    · exact ⟨other, part, rest, rfl, List.mem_cons_of_mem _ mem, inner⟩

theorem tells_compileProperties
    (ordered : documents.Pairwise fun property later => ByteLt property.1 later.1)
    (parts : ∀ property ∈ documents, ∀ location,
      Tells (compileAt engine location property.2) (Fault engine location property.2)) :
    Tells (compileProperties engine location documents) (NamedFault engine location documents) := by
  induction documents with
  | nil =>
    refine ⟨fun _ _ => ?_, nofun, ?_⟩
    · rintro path e ⟨name, document, rest, -, mem, -⟩
      cases mem
    · rintro path e e' ⟨name, document, rest, -, mem, -⟩
      cases mem
  | cons property documents ih =>
    obtain ⟨name, document⟩ := property
    obtain ⟨hfirst, hordered⟩ := List.pairwise_cons.1 ordered
    obtain ⟨hpart, hparts⟩ := List.forall_mem_cons.1 parts
    have hrest := ih hordered hparts
    refine (Tells.seq (hpart (location ++ "/properties/" ++ name)) ?_ ?_ hrest.unique ?_).congr
      fun path e => namedFault_cons_iff
    · intro schema hschema
      simp only [compileProperties, hschema]
      exact hrest.map _
    · intro e he
      simp only [compileProperties, he]
    · rintro path e ⟨other, part, rest, rfl, mem, -⟩
      exact ⟨other, rest, rfl, hfirst _ mem⟩

theorem tells_compileObject
    (ordered : documents.Pairwise fun property later => ByteLt property.1 later.1)
    (parts : ∀ property ∈ documents, ∀ location,
      Tells (compileAt engine location property.2) (Fault engine location property.2)) :
    Tells (compileObject engine location (.obj documents))
      (MemberFault engine location "properties" (.obj documents)) := by
  have hnamed : Tells (compileObject engine location (.obj documents))
      (NamedFault engine location documents) := tells_compileProperties ordered parts
  refine hnamed.congr fun path e => ?_
  have htype : Keyword.properties ≠ .type := nofun
  have hpattern : Keyword.properties ≠ .pattern := nofun
  rw [memberFault_properties_iff, ownFault_name_iff htype hpattern]
  constructor
  · rintro (⟨-, refused, -⟩ | ⟨others, heq, hfault⟩)
    · exact absurd ⟨documents, rfl⟩ refused
    · cases heq
      exact hfault
  · exact fun hfault => .inr ⟨documents, rfl, hfault⟩

/-- What is no object does not name documents. -/
theorem tells_compileObject_of_ne {value : Json} (h : ∀ documents, value ≠ .obj documents) :
    Tells (compileObject engine location value)
      (MemberFault engine location "properties" value) := by
  have hresult : compileObject engine location value =
      .error (.invalidKeyword location .properties) := by
    cases value with
    | obj documents => exact absurd rfl (h documents)
    | null | bool | num | str | arr => simp only [compileObject]
  have hrefused : ¬ Keyword.properties.Admits value := by
    rintro ⟨documents, rfl⟩
    exact h documents rfl
  have htype : Keyword.properties ≠ .type := nofun
  have hpattern : Keyword.properties ≠ .pattern := nofun
  have hown (e : SchemaError) : compileObject engine location value = .error e ↔
      OwnFault engine location Keyword.properties.name value e := by
    rw [hresult, ownFault_name_iff htype hpattern, and_iff_right hrefused, Except.error.injEq,
      eq_comm]
  refine (Tells.of_iff hown).congr fun path e => ?_
  rw [memberFault_properties_iff]
  exact or_iff_left fun ⟨documents, heq, _⟩ => h documents heq

theorem tells_compileRules
    (ordered : members.Pairwise fun member later => ByteLt member.1 later.1)
    (normal : ∀ member ∈ members, member.2.IsNormal)
    (documents : ∀ member ∈ members, ∀ location,
      Tells (compileAt engine location member.2) (Fault engine location member.2))
    (objects : ∀ member ∈ members, ∀ location,
      Tells (compileObject engine location member.2)
        (MemberFault engine location "properties" member.2))
    (r : SchemaRules Schema) :
    Tells (compileRules engine location r members) (Fault engine location (.obj members)) := by
  induction members generalizing r with
  | nil =>
    refine ⟨fun _ _ => ?_, ?_, ?_⟩
    · rintro path e hfault
      obtain ⟨key, value, rest, -, mem, -⟩ := fault_obj_iff.1 hfault
      cases mem
    · intro e he
      simp only [compileRules] at he
      cases he
    · rintro path e e' hfault
      obtain ⟨key, value, rest, -, mem, -⟩ := fault_obj_iff.1 hfault
      cases mem
  | cons member members ih =>
    obtain ⟨key, value⟩ := member
    rw [List.pairwise_cons] at ordered
    rw [List.forall_mem_cons] at normal documents objects
    have hrest := ih ordered.2 normal.2 documents.2 objects.2
    have hlater : ∀ path e, Fault engine location (.obj members) path e →
        ∃ other rest, path = other :: rest ∧ ByteLt key other := by
      intro path e hfault
      obtain ⟨other, part, rest, rfl, mem, -⟩ := fault_obj_iff.1 hfault
      exact ⟨other, rest, rfl, ordered.1 _ mem⟩
    have hstep {α : Type} {first : Except SchemaError α} {whole : Except SchemaError Schema}
        (hfirst : Tells first (MemberFault engine location key value))
        (hok : ∀ a, first = .ok a → ∃ r', whole = compileRules engine location r' members)
        (herror : ∀ e, first = .error e → whole = .error e) :
        Tells whole (Fault engine location (.obj ((key, value) :: members))) := by
      refine (hfirst.seq (fun a ha => ?_) herror (hrest r).unique hlater).congr
        fun path e => fault_obj_cons_iff
      obtain ⟨r', rfl⟩ := hok a ha
      exact hrest r'
    unfold compileRules
    split
    · refine hstep (objects.1 location) (fun a ha => ?_) fun e he => ?_
      · rw [ha]
        exact ⟨_, rfl⟩
      · rw [he]
    · refine hstep ((documents.1 _).congr fun path e => memberFault_additional_iff)
        (fun a ha => ?_) fun e he => ?_
      · rw [ha]
        exact ⟨_, rfl⟩
      · rw [he]
    · refine hstep ((documents.1 _).congr fun path e => memberFault_items_iff)
        (fun a ha => ?_) fun e he => ?_
      · rw [ha]
        exact ⟨_, rfl⟩
      · rw [he]
    · next hproperties hadditional hitems =>
      have hkey : key ∉ documentKeys := by
        simp only [documentKeys, List.mem_cons, List.not_mem_nil, or_false, not_or]
        exact ⟨hproperties, hadditional, hitems⟩
      have hown : Tells (setKeyword engine location r key value)
          (MemberFault engine location key value) :=
        (Tells.of_iff fun e => setKeyword_eq_error_iff normal.1 hkey).congr
          fun path e => memberFault_iff_of_notMem hkey
      refine hstep hown (fun a ha => ?_) fun e he => ?_
      · rw [ha]
        exact ⟨_, rfl⟩
      · rw [he]

theorem tells_compileAt_bool (accepts : Bool) :
    Tells (compileAt engine location (.bool accepts)) (Fault engine location (.bool accepts)) := by
  have hno : ∀ path e, ¬ Fault engine location (.bool accepts) path e := by
    rintro path e (⟨bool, -⟩ | _)
    exact bool accepts rfl
  refine ⟨fun _ _ => hno, fun e he => ?_, fun path e e' hfault => absurd hfault (hno path e)⟩
  rw [compileAt] at he
  cases he

/-- What is neither a boolean nor an object is no schema. -/
theorem tells_compileAt_of_ne {document : Json} (hbool : ∀ accepts, document ≠ .bool accepts)
    (hobj : ∀ members, document ≠ .obj members) :
    Tells (compileAt engine location document) (Fault engine location document) := by
  have hresult : compileAt engine location document = .error (.notASchema location) := by
    cases document with
    | bool accepts => exact absurd rfl (hbool accepts)
    | obj members => exact absurd rfl (hobj members)
    | null | num | str | arr => simp only [compileAt]
  have hown (e : SchemaError) :
      compileAt engine location document = .error e ↔ .notASchema location = e := by
    rw [hresult, Except.error.injEq]
  refine (Tells.of_iff hown).congr fun path e => ?_
  constructor
  · intro hfault
    cases hfault with
    | notASchema => exact ⟨rfl, rfl⟩
    | member => exact absurd rfl (hobj _)
  · rintro ⟨rfl, rfl⟩
    exact .notASchema hbool hobj

/-- The induction is on both at once: an object is read as a document, or as the documents of a
    `properties` keyword. -/
theorem tells_compile (engine : PatternEngine) {document : Json} (h : document.IsNormal) :
    (∀ location, Tells (compileAt engine location document) (Fault engine location document)) ∧
      ∀ location, Tells (compileObject engine location document)
        (MemberFault engine location "properties" document) := by
  induction h with
  | @obj members ordered parts ih =>
    have documents := fun member hmember => (ih member hmember).1
    have objects := fun member hmember => (ih member hmember).2
    refine ⟨fun location => ?_, fun location => tells_compileObject ordered documents⟩
    rw [compileAt]
    exact tells_compileRules ordered parts documents objects {}
  | bool accepts =>
    exact ⟨fun location => tells_compileAt_bool accepts,
      fun location => tells_compileObject_of_ne (by simp)⟩
  | null | int | double | str | arr =>
    exact ⟨fun location => tells_compileAt_of_ne (by simp) (by simp),
      fun location => tells_compileObject_of_ne (by simp)⟩

end

/-! ## The first fault -/

section

variable {engine : PatternEngine}

theorem WellFormed.not_fault {document : Json} (h : WellFormed engine document) (location : String)
    (path : List String) (e : SchemaError) : ¬ Fault engine location document path e := by
  induction h generalizing location path with
  | bool accepts =>
    rintro (⟨bool, -⟩ | _)
    exact bool accepts rfl
  | obj admitted known readable _ _ _ properties additional items =>
    intro hfault
    obtain ⟨key, value, rest, -, mem, inner⟩ := fault_obj_iff.1 hfault
    cases inner with
    | own fault =>
      cases fault with
      | form refused => exact refused (admitted _ _ mem)
      | unknownType listed _ unknown => exact unknown (known _ _ mem listed _ (by simp))
      | pattern unread =>
        obtain ⟨isMatch, hread⟩ := readable _ mem
        cases unread.symm.trans hread
    | property hproperty inner => exact properties _ mem _ hproperty _ _ inner
    | additional inner => exact additional _ mem _ _ inner
    | items inner => exact items _ mem _ _ inner

/-- A document without faults is well formed, and so are the documents in it. -/
theorem wellFormed_of_not_fault {location : String} {document : Json}
    (h : ∀ path e, ¬ Fault engine location document path e) : WellFormed engine document := by
  match document with
  | .bool accepts => exact .bool accepts
  | .obj members =>
    have hmember {key : String} {value : Json} (mem : (key, value) ∈ members) (path : List String)
        (e : SchemaError) : ¬ MemberFault engine location key value path e :=
      fun inner => h _ e (.member mem inner)
    constructor
    case admitted =>
      intro keyword value mem
      by_contra refused
      exact hmember mem _ _ (.own (.form refused))
    case known =>
      intro types names mem listed name hname
      cases hresult : typesOf location names with
      | ok found =>
        rw [typesOf_eq_ok hresult] at hname
        obtain ⟨t, -, rfl⟩ := List.mem_map.1 hname
        exact ⟨t, rfl⟩
      | error fault =>
        have hown : OwnFault engine location "type" types fault :=
          ownFault_type_iff.2 (.inr ⟨names, listed, hresult⟩)
        exact absurd (.own hown) (hmember mem [] fault)
    case readable =>
      intro source mem
      by_contra hunread
      refine hmember mem _ _ (.own (.pattern (Option.eq_none_iff_forall_ne_some.2 ?_)))
      exact fun isMatch hread => hunread ⟨isMatch, hread⟩
    case properties =>
      intro documents mem property hproperty
      have hdocuments : sizeOf (Json.obj documents) < sizeOf (Json.obj members) :=
        sizeOf_lt_of_mem mem
      have hdocument := sizeOf_lt_of_mem hproperty
      exact wellFormed_of_not_fault fun path e inner => hmember mem _ e (.property hproperty inner)
    case additional =>
      intro document mem
      have hdocument := sizeOf_lt_of_mem mem
      exact wellFormed_of_not_fault fun path e inner => hmember mem _ e (.additional inner)
    case items =>
      intro document mem
      have hdocument := sizeOf_lt_of_mem mem
      exact wellFormed_of_not_fault fun path e inner => hmember mem _ e (.items inner)
  | .null | .num _ | .str _ | .arr _ =>
    exact absurd (.notASchema nofun nofun) (h [] (.notASchema location))
termination_by sizeOf document
decreasing_by all_goals omega

/-- A document has one first fault at most. -/
theorem IsFirstFault.unique {document : Json} {e e' : SchemaError} (h : document.IsNormal)
    (hfirst : IsFirstFault engine document e) (hfirst' : IsFirstFault engine document e') :
    e = e' := by
  obtain ⟨path, hpath, hleast⟩ := hfirst
  obtain ⟨path', hpath', hleast'⟩ := hfirst'
  have hle := hleast path' e' hpath'
  have hle' := hleast' path e hpath
  rw [precedes_iff, not_lt] at hle hle'
  cases le_antisymm hle hle'
  exact ((tells_compile engine h).1 "").unique path e e' hpath hpath'

/-- The error that is reported is that of the first fault. -/
theorem compile_eq_error_iff {document : Json} {e : SchemaError} (h : document.IsNormal) :
    compile engine document = .error e ↔ IsFirstFault engine document e := by
  have htells := (tells_compile engine h).1 ""
  refine ⟨htells.error e, fun hfirst => ?_⟩
  cases hresult : compile engine document with
  | ok schema =>
    obtain ⟨path, hpath, -⟩ := hfirst
    exact absurd hpath (htells.ok schema hresult path e)
  | error e' =>
    have hfirst' : IsFirstFault engine document e' := htells.error e' hresult
    rw [hfirst'.unique h hfirst]

/-- What yields a schema is well formed, and nothing else. -/
theorem exists_compile_eq_ok_iff {document : Json} (h : document.IsNormal) :
    (∃ schema, compile engine document = .ok schema) ↔ WellFormed engine document := by
  have htells := (tells_compile engine h).1 ""
  constructor
  · rintro ⟨schema, hschema⟩
    exact wellFormed_of_not_fault (htells.ok schema hschema)
  · intro hwell
    cases hresult : compile engine document with
    | ok schema => exact ⟨schema, rfl⟩
    | error e =>
      obtain ⟨path, hpath, -⟩ := (compile_eq_error_iff h).1 hresult
      exact absurd hpath (hwell.not_fault "" path e)

end

/-- **Schemas are the well-formed documents.** Whichever engine reads patterns, reading a value
    yields a schema exactly if the value is a well-formed document, and an error exactly if this is
    the error of its first fault. -/
theorem compile_iff (engine : PatternEngine) {document : Json} (h : document.IsNormal) :
    ((∃ schema, compile engine document = .ok schema) ↔ WellFormed engine document) ∧
      ∀ e, compile engine document = .error e ↔ IsFirstFault engine document e :=
  ⟨exists_compile_eq_ok_iff h, fun _ => compile_eq_error_iff h⟩

/-- The patterns in the items are met before the type of the document itself: the first one can be
    read, and the second one cannot. -/
theorem compile_iff_items_first :
    let engine : PatternEngine := fun source =>
      if source = "^a" then some fun text => text.toList.head? = some 'a' else none
    let document := Json.obj [("items", .obj [("items", .obj [("pattern", .str "^a")]),
      ("pattern", .str "(")]), ("type", .str "text")]
    document.IsNormal ∧ IsFirstFault engine document (.pattern "/items") ∧
      ¬ WellFormed engine document := by
  intro engine document
  have hinner : (Json.obj [("pattern", .str "^a")]).IsNormal :=
    .obj (List.pairwise_singleton _ _) (List.forall_mem_singleton.2 (.str "^a"))
  have hitems : (Json.obj [("items", .obj [("pattern", .str "^a")]),
      ("pattern", .str "(")]).IsNormal :=
    .obj (by decide +kernel)
      (List.forall_mem_cons.2 ⟨hinner, List.forall_mem_singleton.2 (.str "(")⟩)
  have h : document.IsNormal :=
    .obj (by decide +kernel)
      (List.forall_mem_cons.2 ⟨hitems, List.forall_mem_singleton.2 (.str "text")⟩)
  refine ⟨h, ((compile_iff engine h).2 _).1 rfl, fun hwell => ?_⟩
  obtain ⟨schema, hschema⟩ := (compile_iff engine h).1.2 hwell
  cases hschema

/-- A text is that of a schema exactly if it is JSON of a well-formed document. What is reported of
    other texts is what the reader has found, or the first fault of the document. -/
theorem parse_iff (engine : PatternEngine) (text : String) :
    ((∃ schema, parse engine text = .ok schema) ↔
      ∃ document, Json.parse text.toList = .ok document ∧ WellFormed engine document) ∧
    ∀ e, parse engine text = .error e ↔
      (∃ error, Json.parse text.toList = .error error ∧ e = .json error) ∨
        ∃ document, Json.parse text.toList = .ok document ∧ IsFirstFault engine document e := by
  rw [parse]
  cases hparse : Json.parse text.toList with
  | ok document =>
    have h := Json.isNormal_of_parse hparse
    simp [exists_compile_eq_ok_iff h, compile_eq_error_iff h]
  | error error => simp [eq_comm]

end Schema

end GuideCheck
