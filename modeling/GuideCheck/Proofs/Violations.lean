import GuideCheck.Proofs.Governing
import Mathlib.Data.List.Nodup

set_option autoImplicit false

/-! # Violations point at what fails

The path of a violation is a JSON pointer to a part of the value, and the keyword of the violation
is one that fails there for the schema that governs the part (`Schema.validate_points`). A part is
visited once, because the keys of its path are those of one member or item each. So nothing is
reported twice (`Schema.pairwise_failures`), unless a name is required twice, and a value of a wrong
type has one violation at its path and none below (`Schema.validate_complete`). -/

namespace GuideCheck

/-! ## Nothing is reported twice -/

namespace Schema

/-- Whether two failures differ wherever the cause of the first is of some kind. -/
def DifferOn (kind : Cause → Prop) (f g : Failure) : Prop := kind f.cause → f ≠ g

section

variable {kind : Cause → Prop}

theorem pairwise_under {fs : List Failure} (h : fs.Pairwise (DifferOn kind)) (key : String) :
    (fs.map (·.under key)).Pairwise (DifferOn kind) := by
  refine List.pairwise_map.2 (h.imp fun {f g} hdiffer hkind heq => hdiffer hkind ?_)
  obtain ⟨path, cause⟩ := f
  obtain ⟨path', cause'⟩ := g
  cases heq
  rfl

/-- Failures of parts with different keys differ. -/
theorem pairwise_flatMap_under {α : Type} {parts : List α} {key : α → String}
    {found : α → List Failure} (hkeys : (parts.map key).Nodup)
    (h : ∀ part ∈ parts, (found part).Pairwise (DifferOn kind)) :
    (parts.flatMap fun part => (found part).map (·.under (key part))).Pairwise
      (DifferOn kind) := by
  refine List.pairwise_flatMap.2 ⟨fun part hpart => pairwise_under (h part hpart) _, ?_⟩
  refine (List.pairwise_map.1 hkeys).imp fun hne f hf g hg _ heq => hne ?_
  obtain ⟨f', -, rfl⟩ := List.mem_map.1 hf
  obtain ⟨g', -, rfl⟩ := List.mem_map.1 hg
  exact (List.cons.inj (congrArg Failure.path heq)).1

theorem propertyFailures_eq_flatMap (properties : List (String × Schema))
    (members : List (String × Json)) :
    propertyFailures properties members = properties.flatMap fun property =>
      ((members.lookup property.1).elim [] property.2.failures).map (·.under property.1) := by
  induction properties with
  | nil => rfl
  | cons property properties ih =>
    rw [propertyFailures, List.flatMap_cons, ih]
    cases members.lookup property.1 <;> rfl

theorem nodup_keys_indexed (items : List Json) : ((indexed items).map Prod.fst).Nodup := by
  have hkeys : (indexed items).map Prod.fst = (List.range items.length).map toString := by
    rw [indexed, List.map_map, List.range_eq_range', ← List.zipIdx_map_snd, List.map_map]
    rfl
  rw [hkeys]
  exact List.nodup_range.map toString_nat_injective

theorem pairwise_broken {α : Type} (limit : Option α) (breaks : α → Bool) (cause : α → Cause) :
    (SchemaRules.broken limit breaks cause).Pairwise (DifferOn kind) := by
  cases limit with
  | none => exact List.Pairwise.nil
  | some a =>
    rw [SchemaRules.broken]
    split
    · exact List.pairwise_singleton _ _
    · exact List.Pairwise.nil

/-- Two limits break for different causes. -/
theorem pairwise_append_broken {α : Type} {found : List Failure} {limit : Option α}
    {breaks : α → Bool} {cause : α → Cause} (h : found.Pairwise (DifferOn kind))
    (hcause : ∀ f ∈ found, ∀ a, f.cause ≠ cause a) :
    (found ++ SchemaRules.broken limit breaks cause).Pairwise (DifferOn kind) := by
  refine List.pairwise_append.2 ⟨h, pairwise_broken limit breaks cause, fun f hf g hg _ heq => ?_⟩
  obtain ⟨a, -, -, rfl⟩ := mem_broken_iff.1 hg
  exact hcause f hf a (congrArg Failure.cause heq)

variable (r : SchemaRules Schema)

theorem pairwise_countFailures (items : List Json) :
    (r.countFailures items).Pairwise (DifferOn kind) := by
  refine pairwise_append_broken (pairwise_broken _ _ _) fun f hf limit heq => ?_
  obtain ⟨a, -, -, rfl⟩ := mem_broken_iff.1 hf
  cases heq

theorem pairwise_numberFailures (n : Number) : (r.numberFailures n).Pairwise (DifferOn kind) := by
  refine pairwise_append_broken (pairwise_broken _ _ _) fun f hf limit heq => ?_
  obtain ⟨a, -, -, rfl⟩ := mem_broken_iff.1 hf
  cases heq

theorem pairwise_textFailures (text : String) :
    (r.textFailures text).Pairwise (DifferOn kind) := by
  refine pairwise_append_broken (pairwise_append_broken (pairwise_broken _ _ _) ?_) ?_
  · intro f hf limit heq
    obtain ⟨a, -, -, rfl⟩ := mem_broken_iff.1 hf
    cases heq
  · intro f hf p heq
    rcases List.mem_append.1 hf with hf | hf
    · obtain ⟨a, -, -, rfl⟩ := mem_broken_iff.1 hf
      cases heq
    · obtain ⟨a, -, -, rfl⟩ := mem_broken_iff.1 hf
      cases heq

theorem pairwise_missing (hrequired : (∃ name, kind (.required name)) → r.required.Nodup)
    (members : List (String × Json)) : (r.missing members).Pairwise (DifferOn kind) := by
  rw [SchemaRules.missing]
  by_cases hkind : ∃ name, kind (.required name)
  · have hnodup := (hrequired hkind).filter fun name => (members.lookup name).isNone
    exact List.pairwise_map.2 (hnodup.imp fun hne _ heq => hne (by cases heq; rfl))
  · refine List.pairwise_map.2 (List.pairwise_of_forall fun name _ hname _ => ?_)
    exact hkind ⟨name, hname⟩

variable {r} {value : Json} {schema : Schema}

theorem pairwise_additionalFailures {additional : Option Schema} {members : List (String × Json)}
    (hkeys : (members.map Prod.fst).Nodup)
    (h : ∀ schema, additional = some schema → schema ≠ .always false → ∀ member ∈ members,
      (schema.failures member.2).Pairwise (DifferOn kind)) :
    (additionalFailures additional members).Pairwise (DifferOn kind) := by
  unfold additionalFailures
  split
  · exact List.Pairwise.nil
  · refine List.pairwise_map.2 ((List.pairwise_map.1 hkeys).imp fun hne _ heq => hne ?_)
    exact Cause.additionalProperty.inj (congrArg Failure.cause heq)
  · next schema hne => exact pairwise_flatMap_under hkeys (h schema rfl fun heq => hne heq)

/-- The failures of an array: its number of items, and the items. -/
theorem pairwise_itemFailures (r : SchemaRules Schema) {items : List Json}
    (h : ∀ schema, r.items = some schema → ∀ (i : Nat) (part : Json), items[i]? = some part →
      (schema.failures part).Pairwise (DifferOn kind)) :
    (r.countFailures items ++ itemFailures r.items (indexed items)).Pairwise (DifferOn kind) := by
  refine List.pairwise_append.2 ⟨pairwise_countFailures r items, ?_, fun f hf g hg _ heq => ?_⟩
  · cases hitems : r.items with
    | none => exact List.Pairwise.nil
    | some schema =>
      refine pairwise_flatMap_under (nodup_keys_indexed items) fun entry hentry => ?_
      obtain ⟨⟨part, i⟩, hpart, rfl⟩ := List.mem_map.1 hentry
      exact h schema hitems i part (List.mem_zipIdx_iff_getElem?.1 hpart)
  · -- the number of items is reported of the array
    obtain ⟨cause, rfl, -⟩ := (finds_countFailures r items f).1 hf
    obtain ⟨_, -, i, _, -, _, -, rfl⟩ := mem_itemFailures_iff.1 hg
    cases heq

/-- The failures of an object: what is missing, what is not named, and what is named. -/
theorem pairwise_objectFailures {members : List (String × Json)}
    (hproperties : (r.properties.map Prod.fst).Nodup) (hmembers : (members.map Prod.fst).Nodup)
    (hrequired : (∃ name, kind (.required name)) → r.required.Nodup)
    (hnamed : ∀ property ∈ r.properties, ∀ part, members.lookup property.1 = some part →
      (property.2.failures part).Pairwise (DifferOn kind))
    (hunnamed : ∀ schema, r.additional = some schema → schema ≠ .always false →
      ∀ member ∈ members, member.1 ∉ r.properties.map Prod.fst →
        (schema.failures member.2).Pairwise (DifferOn kind)) :
    (r.missing members ++ additionalFailures r.additional (r.extra members) ++
      propertyFailures r.properties members).Pairwise (DifferOn kind) := by
  have hextra : ((r.extra members).map Prod.fst).Nodup :=
    hmembers.sublist (List.filter_sublist.map _)
  refine List.pairwise_append.2 ⟨List.pairwise_append.2 ⟨pairwise_missing r hrequired members, ?_,
    ?_⟩, ?_, ?_⟩
  · refine pairwise_additionalFailures hextra fun schema given accepted member hmember => ?_
    obtain ⟨hmember, unnamed⟩ := (mem_extra_iff r).1 hmember
    exact hunnamed schema given accepted member hmember unnamed
  · -- a missing member is reported of the object, and for another cause than a refused one
    intro f hf g hg _ heq
    obtain ⟨name, -, -, rfl⟩ := (mem_missing_iff r).1 hf
    rcases mem_additionalFailures_iff.1 hg with ⟨-, _, -, rfl⟩ | ⟨_, -, -, _, -, _, -, rfl⟩
    · cases heq
    · cases heq
  · rw [propertyFailures_eq_flatMap]
    refine pairwise_flatMap_under hproperties fun property hproperty => ?_
    cases hlookup : members.lookup property.1 with
    | none => exact List.Pairwise.nil
    | some part => exact hnamed property hproperty part hlookup
  · -- no unnamed member has the key of a property
    intro f hf g hg _ heq
    obtain ⟨property, hproperty, _, -, _, -, rfl⟩ := mem_propertyFailures_iff.1 hg
    rcases List.mem_append.1 hf with hf | hf
    · obtain ⟨name, -, -, rfl⟩ := (mem_missing_iff r).1 hf
      cases heq
    · rcases mem_additionalFailures_iff.1 hf with
        ⟨-, _, -, rfl⟩ | ⟨_, -, -, member, hmember, _, -, rfl⟩
      · cases heq
      · have hkey := (List.cons.inj (congrArg Failure.path heq)).1
        exact ((mem_extra_iff r).1 hmember).2 (hkey ▸ List.mem_map_of_mem hproperty)

/-- No failure is found twice if none is in the parts. -/
theorem pairwise_failures_of_leads (hschema : schema.IsKeyed)
    (hrequired : schema.Every fun r => (∃ name, kind (.required name)) → r.required.Nodup)
    (hvalue : value.IsKeyed)
    (hparts : ∀ token sub part, Leads schema value token sub part →
      (sub.failures part).Pairwise (DifferOn kind)) :
    (schema.failures value).Pairwise (DifferOn kind) := by
  cases hschema with
  | always accepts =>
    cases accepts with
    | true => exact List.Pairwise.nil
    | false => exact List.pairwise_singleton _ _
  | @rules r hproperties =>
    by_cases hallows : r.allowsType value = true
    · have holds := (typeHolds_rules_iff r).2 hallows
      cases hvalue with
      | null | bool =>
        simp only [failures, hallows, not_true_eq_false, if_false]
        exact List.Pairwise.nil
      | num n =>
        simp only [failures, hallows, not_true_eq_false, if_false]
        exact pairwise_numberFailures r n
      | str text =>
        simp only [failures, hallows, not_true_eq_false, if_false]
        exact pairwise_textFailures r text
      | @arr items =>
        simp only [failures, hallows, not_true_eq_false, if_false]
        refine pairwise_itemFailures r fun schema given i part present => ?_
        exact hparts _ _ _ (.item holds given rfl present)
      | @obj members hmembers =>
        cases hrequired with
        | rules hnames =>
          simp only [failures, hallows, not_true_eq_false, if_false]
          refine pairwise_objectFailures hproperties hmembers hnames ?_ ?_
          · intro property hproperty part present
            have hnamed := (lookup_eq_some_iff_mem hproperties).2 hproperty
            exact hparts _ _ _ (.property holds hnamed present)
          · intro schema given accepted member hmember unnamed
            have hpresent := (lookup_eq_some_iff_mem hmembers).2 hmember
            exact hparts _ _ _ (.additional holds given accepted unnamed hpresent)
    · rw [failures_of_wrongType hallows]
      exact List.pairwise_singleton _ _

/-- **No failure is found twice**, except of names that are required twice. -/
theorem pairwise_failures {schema : Schema} {value : Json} (hschema : schema.IsKeyed)
    (hrequired : schema.Every fun r => (∃ name, kind (.required name)) → r.required.Nodup)
    (hvalue : value.IsKeyed) : (schema.failures value).Pairwise (DifferOn kind) :=
  pairwise_failures_of_leads hschema hrequired hvalue fun _ _ _ hleads =>
    pairwise_failures (hleads.every hschema) (hleads.every hrequired) (hleads.isKeyed hvalue)
termination_by sizeOf value
decreasing_by exact hleads.sizeOf_lt

end

/-! ## Failures at one path -/

section

variable {schema sub : Schema} {value part : Json} {f g : Failure}

/-- Keyword and names say which of the keywords that fail at a value is meant. -/
theorem Fails.cause_unique {cause cause' : Cause} (h : schema.Fails value cause)
    (h' : schema.Fails value cause') (hkeyword : cause.keyword = cause'.keyword)
    (hmissing : cause.params.lookup "missingProperty" = cause'.params.lookup "missingProperty")
    (hadditional : cause.params.lookup "additionalProperty" =
      cause'.params.lookup "additionalProperty") : cause = cause' := by
  cases h <;> cases h' <;> simp_all [Cause.keyword, Cause.params]

/-- A value of a wrong type has no governed parts, and reports only its type. -/
theorem Governs.eq_of_wrongType {types : List TypeName} (htype : schema.Fails value (.type types))
    {path : List String} (hgoverns : Governs schema value path sub part) {cause : Cause}
    (hreports : sub.Reports part cause) : path = [] ∧ cause = .type types := by
  cases hgoverns with
  | step hleads => exact absurd htype (hleads.typeHolds types)
  | here =>
    obtain ⟨hfails, ⟨others, rfl⟩ | holds⟩ := hreports
    · cases htype
      cases hfails
      exact ⟨rfl, rfl⟩
    · exact absurd htype (holds types)

/-- A failure of a type is the only one at its path and below. -/
theorem eq_of_wrongType (hschema : schema.IsKeyed) (hvalue : value.IsKeyed)
    (hf : f ∈ schema.failures value) {types : List TypeName} (htype : f.cause = .type types)
    (hg : g ∈ schema.failures value) {after : List String} (hpath : g.path = f.path ++ after) :
    g = f := by
  obtain ⟨sub, part, hgoverns, hreports⟩ := (mem_failures_iff hschema hvalue).1 hf
  obtain ⟨below, belowPart, hbelow, hreports'⟩ := (mem_failures_iff hschema hvalue).1 hg
  rw [hpath] at hbelow
  obtain ⟨mid, between, hmid, hafter⟩ := hbelow.split
  obtain ⟨rfl, rfl⟩ := hmid.unique hgoverns
  obtain ⟨rfl, hcause⟩ := hafter.eq_of_wrongType (htype ▸ hreports.1) hreports'
  obtain ⟨path, cause⟩ := f
  obtain ⟨path', cause'⟩ := g
  simp only [List.append_nil] at hpath htype hcause
  rw [hpath, htype, hcause]

/-- A list whose elements are all alike, but not twice the same, has one element. -/
theorem eq_singleton_of_pairwise {kind : Cause → Prop} {found : List Failure}
    (h : found.Pairwise (DifferOn kind)) (hf : f ∈ found) (hkind : kind f.cause)
    (hall : ∀ g ∈ found, g = f) : found = [f] := by
  cases found with
  | nil => cases hf
  | cons first rest =>
    obtain rfl := hall first List.mem_cons_self
    cases rest with
    | nil => rfl
    | cons second rest =>
      obtain rfl := hall second (List.mem_cons_of_mem _ List.mem_cons_self)
      exact absurd rfl ((List.pairwise_cons.1 h).1 _ List.mem_cons_self hkind)

end

theorem Cause.eq_type_of_keyword {cause : Cause} (h : cause.keyword = "type") :
    ∃ types, cause = .type types := by
  cases cause with
  | type types => exact ⟨types, rfl⟩
  | _ => simp [Cause.keyword] at h

/-! ## Violations -/

section

variable {schema : Schema} {value : Json}

/-- **Violations point at what fails.** Of any schema that names each property once, as those that
    are read from documents do: the path of a violation is a pointer to a part of the value, and the
    keyword of the violation fails there for the schema that governs the part. Violations agree in
    path, keyword and names only if a list of required names repeats one. -/
theorem validate_points (hschema : schema.IsKeyed) (hvalue : value.IsKeyed) :
    (∀ v ∈ schema.validate value, ∃ path sub part cause,
      readPointer? v.path = some path ∧ value.follow? path = some part ∧
        Governs schema value path sub part ∧ sub.Fails part cause ∧
        v = ⟨v.path, cause.keyword, cause.message, cause.params⟩) ∧
    (schema.Every (fun r => r.required.Nodup) →
      (schema.validate value).Pairwise fun v w => ¬ (v.path = w.path ∧ v.keyword = w.keyword ∧
        v.params.lookup "missingProperty" = w.params.lookup "missingProperty" ∧
        v.params.lookup "additionalProperty" = w.params.lookup "additionalProperty")) := by
  constructor
  · intro v hv
    obtain ⟨f, hf, rfl⟩ := List.mem_map.1 hv
    obtain ⟨sub, part, hgoverns, hreports⟩ := (mem_failures_iff hschema hvalue).1 hf
    exact ⟨f.path, sub, part, f.cause, readPointer?_pointer f.path, hgoverns.follow?, hgoverns,
      hreports.1, rfl⟩
  · intro hrequired
    have hpairwise : (schema.failures value).Pairwise (DifferOn fun _ => True) :=
      pairwise_failures hschema (hrequired.imp fun r h _ => h) hvalue
    refine List.pairwise_map.2 (hpairwise.imp_of_mem fun {f g} hf hg hne hagree => ?_)
    obtain ⟨hpointer, hkeyword, hmissing, hadditional⟩ := hagree
    obtain ⟨path, cause⟩ := f
    obtain ⟨path', cause'⟩ := g
    obtain rfl : path = path' := pointer_injective hpointer
    obtain ⟨sub, part, hgoverns, hreports⟩ := (mem_failures_iff hschema hvalue).1 hf
    obtain ⟨sub', part', hgoverns', hreports'⟩ := (mem_failures_iff hschema hvalue).1 hg
    obtain ⟨rfl, rfl⟩ := hgoverns.unique hgoverns'
    have hcause := hreports.1.cause_unique hreports'.1 hkeyword hmissing hadditional
    exact hne trivial (congrArg (Failure.mk path) hcause)

/-- A member with a slash in its key does not match its pattern, and another one is missing. -/
theorem validate_points_slash :
    let isMatch (text : String) : Bool := text.toList.head? = some 'a'
    let engine : PatternEngine := fun source => if source = "^a" then some isMatch else none
    let document := Json.obj [("properties", .obj [("a/b", .obj [("pattern", .str "^a")])]),
      ("required", .arr [.str "c"])]
    let schema := Schema.rules
      { properties := [("a/b", .rules { pattern := some ⟨"^a", isMatch⟩ })], required := ["c"] }
    let value := Json.obj [("a/b", .str "ba")]
    compile engine document = .ok schema ∧ schema.IsKeyed ∧ value.IsKeyed ∧
      schema.Every (fun r => r.required.Nodup) ∧
      (schema.validate value).map Violation.path = ["", "/a~1b"] ∧
      (∀ v ∈ schema.validate value, (value.at? v.path).isSome = true) ∧
      (schema.validate value).Pairwise (fun v w => ¬ (v.path = w.path ∧ v.keyword = w.keyword ∧
        v.params.lookup "missingProperty" = w.params.lookup "missingProperty" ∧
        v.params.lookup "additionalProperty" = w.params.lookup "additionalProperty")) := by
  intro isMatch engine document schema value
  have hdocument : document.IsKeyed := Json.isKeyed_normal document
  have hcompile : compile engine document = .ok schema := rfl
  have hschema := isKeyed_of_compile hdocument hcompile
  have hvalue : value.IsKeyed := Json.isKeyed_normal value
  have hrequired : schema.Every fun r => r.required.Nodup := by
    refine .rules (List.nodup_singleton "c") ?_ nofun nofun
    rintro property hproperty
    obtain rfl := List.mem_singleton.1 hproperty
    exact .rules List.nodup_nil nofun nofun nofun
  have hpoints := validate_points hschema hvalue
  refine ⟨hcompile, hschema, hvalue, hrequired, rfl, fun v hv => ?_, hpoints.2 hrequired⟩
  obtain ⟨path, sub, part, cause, hpath, hpart, -⟩ := hpoints.1 v hv
  rw [Json.at?, hpath, Option.bind_some, hpart]
  rfl

/-- **A wrong type hides its own part and nothing else.** Of any schema that names each property
    once: a violation of a type is the only one at its path and below it. Whatever fails at a
    governed part is reported there, unless it is another keyword of a part of a wrong type. -/
theorem validate_complete (hschema : schema.IsKeyed) (hvalue : value.IsKeyed) :
    (∀ v ∈ schema.validate value, v.keyword = "type" →
      ((schema.validate value).filter fun w =>
        w.path = v.path ∨ (v.path ++ "/").toList <+: w.path.toList) = [v]) ∧
    ∀ path sub part cause, Governs schema value path sub part → sub.Fails part cause →
      ((∃ types, cause = .type types) ∨ sub.TypeHolds part) →
        ⟨pointer path, cause.keyword, cause.message, cause.params⟩ ∈ schema.validate value := by
  constructor
  · intro v hv hkeyword
    obtain ⟨f, hf, rfl⟩ := List.mem_map.1 hv
    obtain ⟨types, htype⟩ := Cause.eq_type_of_keyword hkeyword
    have hpairwise :
        (schema.failures value).Pairwise (DifferOn fun cause => ∃ types, cause = .type types) :=
      pairwise_failures hschema (hschema.imp fun r _ ⟨name, types, heq⟩ => nomatch heq) hvalue
    -- among the failures at the path and below there is only the one of the type
    have honly : ((schema.failures value).filter fun g => g.violation.path = f.violation.path ∨
        (f.violation.path ++ "/").toList <+: g.violation.path.toList) = [f] := by
      refine eq_singleton_of_pairwise (hpairwise.filter _) (List.mem_filter.2 ⟨hf, ?_⟩)
        ⟨types, htype⟩ fun g hg => ?_
      · simp
      · obtain ⟨hg, hwithin⟩ := List.mem_filter.1 hg
        rcases of_decide_eq_true hwithin with hsame | hbelow
        · have hpath : g.path = f.path ++ [] := by rw [List.append_nil, pointer_injective hsame]
          exact eq_of_wrongType hschema hvalue hf htype hg hpath
        · obtain ⟨token, after, hpath⟩ := exists_of_pointer_isPrefix hbelow
          exact eq_of_wrongType hschema hvalue hf htype hg hpath
    rw [validate, List.filter_map]
    exact congrArg (List.map Failure.violation) honly
  · intro path sub part cause hgoverns hfails htype
    have hmem : ⟨path, cause⟩ ∈ schema.failures value :=
      (mem_failures_iff hschema hvalue).2 ⟨sub, part, hgoverns, hfails, htype⟩
    exact List.mem_map_of_mem hmem

/-- An object where an array is asked for hides its member, and not the text beside it. -/
theorem validate_complete_sibling :
    let isMatch (text : String) : Bool := text.toList.head? = some 'a'
    let engine : PatternEngine := fun source => if source = "^a" then some isMatch else none
    let array := Schema.rules { types := [.array], additional := some (.always false) }
    let short := Schema.rules { maxLength := some 1, pattern := some ⟨"^a", isMatch⟩ }
    let document := Json.obj [("properties", .obj [
      ("a", .obj [("additionalProperties", .bool false), ("type", .str "array")]),
      ("b", .obj [("maxLength", .ofNat 1), ("pattern", .str "^a")])])]
    let schema := Schema.rules { properties := [("a", array), ("b", short)] }
    let value := Json.obj [("a", .obj [("c", .null)]), ("b", .str "xy")]
    compile engine document = .ok schema ∧ schema.IsKeyed ∧ value.IsKeyed ∧
      ((schema.validate value).filter fun w =>
        w.path = "/a" ∨ ("/a" ++ "/").toList <+: w.path.toList) =
        [⟨"/a", "type", "must be array", [("type", .str "array")]⟩] ∧
      short.Fails (.str "xy") (.maxLength 1) ∧ Governs schema value ["b"] short (.str "xy") ∧
      ⟨"/b", "maxLength", "must NOT have more than 1 characters", [("limit", .ofNat 1)]⟩ ∈
        schema.validate value := by
  intro isMatch engine array short document schema value
  have hdocument : document.IsKeyed := Json.isKeyed_normal document
  have hcompile : compile engine document = .ok schema := rfl
  have hschema := isKeyed_of_compile hdocument hcompile
  have hvalue : value.IsKeyed := Json.isKeyed_normal value
  have hfails : short.Fails (.str "xy") (.maxLength 1) := .maxLength rfl (by decide)
  have hholds : schema.TypeHolds value := (typeHolds_rules_iff _).2 rfl
  have hgoverns : Governs schema value ["b"] short (.str "xy") :=
    .step (.property hholds rfl rfl) .here
  have hcomplete := validate_complete hschema hvalue
  exact ⟨hcompile, hschema, hvalue, hcomplete.1 _ List.mem_cons_self rfl, hfails, hgoverns,
    hcomplete.2 ["b"] short (.str "xy") (.maxLength 1) hgoverns hfails
      (Or.inr ((typeHolds_rules_iff _).2 rfl))⟩

end

end Schema

end GuideCheck
