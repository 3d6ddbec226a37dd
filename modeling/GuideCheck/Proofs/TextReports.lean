import GuideCheck.Files.Reports
import GuideCheck.Proofs.Collecting
import GuideCheck.Proofs.Declaration
import GuideCheck.Proofs.Framing
import GuideCheck.Proofs.Keys
import GuideCheck.Proofs.Reports

set_option autoImplicit false

/-! # Text reports, line by line

A text report writes each finding behind the path of its file and ends it with a line feed. What it
writes of a finding is one line, except for a property that the schema of embeds does not know: its
name is quoted as the payload has it, with every line feed that escapes have put into it
(`Finding.breaks`). -/

namespace GuideCheck

/-! ## Line feeds -/

/-- The number of line feeds in a text. -/
def lineFeeds (text : String) : Nat := text.toList.count '\n'

@[simp] theorem lineFeeds_append (a b : String) :
    lineFeeds (a ++ b) = lineFeeds a + lineFeeds b := by
  rw [lineFeeds, String.toList_append, List.count_append]
  rfl

theorem lineFeeds_eq_zero_iff {text : String} : lineFeeds text = 0 ↔ '\n' ∉ text.toList :=
  List.count_eq_zero

@[simp] theorem lineFeeds_nat (n : Nat) : lineFeeds (toString n) = 0 := by
  rw [lineFeeds_eq_zero_iff, Nat.toString_eq_ofList_toDigits, String.toList_ofList]
  intro h
  have hdigit := Nat.isDigit_of_mem_toDigits (by decide) (by decide) h
  exact absurd hdigit (by decide)

theorem lineFeeds_behind {before : String} (h : lineFeeds before = 0) (text : String) :
    lineFeeds (before ++ text) = lineFeeds text := by
  rw [lineFeeds_append, h, Nat.zero_add]

theorem lineFeeds_between {before after : String} (hbefore : lineFeeds before = 0)
    (hafter : lineFeeds after = 0) (text : String) :
    lineFeeds (before ++ text ++ after) = lineFeeds text := by
  rw [lineFeeds_append, lineFeeds_behind hbefore, hafter, Nat.add_zero]

theorem lineFeeds_terminated (lines : List String) :
    lineFeeds (terminated lines) = lines.length + (lines.map lineFeeds).sum := by
  rw [lineFeeds, toList_terminated]
  induction lines with
  | nil => rfl
  | cons line lines ih =>
    rw [List.map_cons, List.flatMap_cons, List.count_append, ih]
    simp [lineFeeds]
    omega

/-! ## Wordings without line feeds -/

theorem Json.lineFeeds_message (error : Json.ReadError) : lineFeeds error.message = 0 := by
  unfold ReadError.message
  simp only [lineFeeds_append, lineFeeds_nat]
  cases error.cause <;> decide +kernel

theorem Component.Problem.lineFeeds_message (p : Component.Problem) : lineFeeds p.message = 0 := by
  unfold message
  cases p <;> simp only [lineFeeds_append, lineFeeds_nat] <;> decide +kernel

/-- The name that a line refers to is made of letters and digits. -/
theorem lineFeeds_of_reference? {line : List Char} {name : String}
    (h : reference? line = some name) : lineFeeds name = 0 := by
  simp only [reference?] at h
  split at h
  · cases h
    rw [lineFeeds_eq_zero_iff, String.toList_ofList]
    intro hmem
    have hword := List.mem_reverse.1 ((List.dropLast_sublist _).subset hmem)
    exact absurd (List.all_eq_true.1 List.all_takeWhile '\n' hword) (by decide)
  · cases h

namespace Schema

theorem lineFeeds_typeList (types : List TypeName) : lineFeeds (typeList types) = 0 := by
  rw [lineFeeds_eq_zero_iff, typeList, String.toList_intercalate, List.map_map]
  have hname (t : TypeName) : '\n' ∉ t.name.toList := by cases t <;> decide +kernel
  induction types with
  | nil => simp
  | cons t rest ih =>
    cases rest with
    | nil => simpa using hname t
    | cons u rest =>
      rw [List.map_cons, List.map_cons, List.intercalate_cons_cons, ← List.map_cons (f := _ ∘ _)]
      simp only [List.mem_append, not_or]
      exact ⟨⟨hname t, by decide +kernel⟩, ih⟩

/-- What the wording of a cause quotes from the schema. -/
def Cause.quoted : Cause → List String
  | required name => [name]
  | pattern source => [source]
  | maximum limit | minimum limit => [limit.text]
  | _ => []

theorem Cause.lineFeeds_message {cause : Cause} (h : ∀ text ∈ cause.quoted, lineFeeds text = 0) :
    lineFeeds cause.message = 0 := by
  unfold message
  cases cause with
  | required name =>
    rw [lineFeeds_between]
    · exact h name List.mem_cons_self
    all_goals decide +kernel
  | pattern source =>
    rw [lineFeeds_between]
    · exact h source List.mem_cons_self
    all_goals decide +kernel
  | maximum limit | minimum limit =>
    rw [lineFeeds_behind]
    · exact h limit.text List.mem_cons_self
    · decide +kernel
  | type expected =>
    rw [lineFeeds_behind]
    · exact lineFeeds_typeList expected
    · decide +kernel
  | maxItems | minItems | maxLength | minLength =>
    rw [lineFeeds_between, lineFeeds_nat] <;> decide +kernel
  | nothing => decide +kernel
  | additionalProperty =>
    show lineFeeds "must NOT have additional properties" = 0
    decide +kernel

/-! ## Schemas that are worded without line feeds -/

/-- Whether a failure is worded without line feeds, the name of a property that is not allowed
    apart. -/
structure Failure.IsPlain (f : Failure) : Prop where
  path : ∀ token ∈ f.path, lineFeeds token = 0
  quoted : ∀ text ∈ f.cause.quoted, lineFeeds text = 0

/-- Whether nothing that rules put in words has a line feed. Members that are not named are refused
    or of no concern, so that their names are not part of a path. -/
structure IsPlain (r : SchemaRules Schema) : Prop where
  required : ∀ name ∈ r.required, lineFeeds name = 0
  named : ∀ property ∈ r.properties, lineFeeds property.1 = 0
  closed : ∀ schema, r.additional = some schema → schema = .always false
  pattern : ∀ p, r.pattern = some p → lineFeeds p.source = 0
  minimum : ∀ limit, r.minimum = some limit → lineFeeds limit.text = 0
  maximum : ∀ limit, r.maximum = some limit → lineFeeds limit.text = 0

namespace Failure

theorem IsPlain.here {cause : Cause} (h : ∀ text ∈ cause.quoted, lineFeeds text = 0) :
    (here cause).IsPlain :=
  ⟨List.forall_mem_nil _, h⟩

theorem IsPlain.under {f : Failure} (h : f.IsPlain) {key : String} (hkey : lineFeeds key = 0) :
    (f.under key).IsPlain :=
  ⟨List.forall_mem_cons.2 ⟨hkey, h.path⟩, h.quoted⟩

theorem isPlain_of_mem_broken {α : Type} {limit : Option α} {breaks : α → Bool} {cause : α → Cause}
    {f : Failure} (hf : f ∈ SchemaRules.broken limit breaks cause)
    (h : ∀ a, limit = some a → ∀ text ∈ (cause a).quoted, lineFeeds text = 0) : f.IsPlain := by
  cases limit with
  | none => cases hf
  | some a =>
    rw [SchemaRules.broken] at hf
    split at hf
    · rw [List.mem_singleton.1 hf]
      exact .here (h a rfl)
    · cases hf

end Failure

end Schema

namespace SchemaRules

open Schema (Failure IsPlain)

variable {r : SchemaRules Schema} {f : Failure}

theorem isPlain_of_mem_missing (h : IsPlain r) {members : List (String × Json)}
    (hf : f ∈ r.missing members) : f.IsPlain := by
  obtain ⟨name, hname, rfl⟩ := List.mem_map.1 hf
  exact .here (List.forall_mem_singleton.2 (h.required name (List.mem_filter.1 hname).1))

theorem isPlain_of_mem_countFailures {items : List Json} (hf : f ∈ r.countFailures items) :
    f.IsPlain := by
  rcases List.mem_append.1 hf with hf | hf
  · exact Failure.isPlain_of_mem_broken hf fun _ _ => List.forall_mem_nil _
  · exact Failure.isPlain_of_mem_broken hf fun _ _ => List.forall_mem_nil _

theorem isPlain_of_mem_textFailures (h : IsPlain r) {text : String}
    (hf : f ∈ r.textFailures text) : f.IsPlain := by
  rcases List.mem_append.1 hf with hf | hf
  · rcases List.mem_append.1 hf with hf | hf
    · exact Failure.isPlain_of_mem_broken hf fun _ _ => List.forall_mem_nil _
    · exact Failure.isPlain_of_mem_broken hf fun _ _ => List.forall_mem_nil _
  · exact Failure.isPlain_of_mem_broken hf fun limit hlimit =>
      List.forall_mem_singleton.2 (h.pattern limit hlimit)

theorem isPlain_of_mem_numberFailures (h : IsPlain r) {n : Number}
    (hf : f ∈ r.numberFailures n) : f.IsPlain := by
  rcases List.mem_append.1 hf with hf | hf
  · exact Failure.isPlain_of_mem_broken hf fun limit hlimit =>
      List.forall_mem_singleton.2 (h.maximum limit hlimit)
  · exact Failure.isPlain_of_mem_broken hf fun limit hlimit =>
      List.forall_mem_singleton.2 (h.minimum limit hlimit)

end SchemaRules

namespace Schema

theorem isPlain_of_mem_additionalFailures {r : SchemaRules Schema} (h : IsPlain r)
    {members : List (String × Json)} {f : Failure}
    (hf : f ∈ additionalFailures r.additional members) : f.IsPlain := by
  cases hschema : r.additional with
  | none => simp [hschema, additionalFailures] at hf
  | some schema =>
    rw [hschema, h.closed schema hschema, additionalFailures] at hf
    obtain ⟨member, -, rfl⟩ := List.mem_map.1 hf
    exact .here (List.forall_mem_nil _)

/-- Failures of named members are plain if those of the schemas for them are. -/
theorem isPlain_of_mem_propertyFailures {properties : List (String × Schema)}
    (hnames : ∀ property ∈ properties, lineFeeds property.1 = 0)
    (hparts : ∀ property ∈ properties, ∀ value, ∀ f ∈ property.2.failures value, f.IsPlain)
    {members : List (String × Json)} {f : Failure} (hf : f ∈ propertyFailures properties members) :
    f.IsPlain := by
  induction properties with
  | nil => simp [propertyFailures] at hf
  | cons property rest ih =>
    rw [List.forall_mem_cons] at hnames hparts
    rw [propertyFailures] at hf
    rcases List.mem_append.1 hf with hf | hf
    · cases hpart : members.lookup property.1 with
      | none => simp [hpart] at hf
      | some part =>
        rw [hpart] at hf
        obtain ⟨g, hg, rfl⟩ := List.mem_map.1 hf
        exact (hparts.1 part g hg).under hnames.1
    · exact ih hnames.2 hparts.2 hf

theorem isPlain_of_mem_itemFailures {schema : Option Schema}
    (hparts : ∀ s, schema = some s → ∀ value, ∀ f ∈ s.failures value, f.IsPlain)
    {items : List Json} {f : Failure} (hf : f ∈ itemFailures schema (indexed items)) :
    f.IsPlain := by
  cases schema with
  | none => simp [itemFailures] at hf
  | some schema =>
    rw [itemFailures] at hf
    obtain ⟨item, hitem, hf⟩ := List.mem_flatMap.1 hf
    obtain ⟨g, hg, rfl⟩ := List.mem_map.1 hf
    obtain ⟨⟨value, index⟩, -, rfl⟩ := List.mem_map.1 hitem
    exact (hparts schema rfl value g hg).under (lineFeeds_nat index)

/-- A schema made of plain rules is worded without line feeds, whatever the value. -/
theorem isPlain_of_mem_failures {schema : Schema} (h : schema.Every IsPlain) (value : Json) :
    ∀ f ∈ schema.failures value, f.IsPlain := by
  induction h generalizing value with
  | always accepts =>
    cases accepts with
    | true => simp [failures]
    | false =>
      rw [failures]
      exact List.forall_mem_singleton.2 (.here (List.forall_mem_nil _))
  | @rules r here _ _ _ properties _ items =>
    intro f hf
    unfold failures at hf
    split at hf
    · rw [List.mem_singleton.1 hf]
      exact .here (List.forall_mem_nil _)
    · cases value with
      | null | bool => simp at hf
      | num n => exact SchemaRules.isPlain_of_mem_numberFailures here hf
      | str text => exact SchemaRules.isPlain_of_mem_textFailures here hf
      | arr elements =>
        rcases List.mem_append.1 hf with hf | hf
        · exact SchemaRules.isPlain_of_mem_countFailures hf
        · exact isPlain_of_mem_itemFailures items hf
      | obj members =>
        rcases List.mem_append.1 hf with hf | hf
        · rcases List.mem_append.1 hf with hf | hf
          · exact SchemaRules.isPlain_of_mem_missing here hf
          · exact isPlain_of_mem_additionalFailures here hf
        · exact isPlain_of_mem_propertyFailures here.named properties hf

/-! ## The schema of embeds -/

/-- Rules without properties, schemas in them and patterns are plain if their bounds are. -/
theorem every_isPlain_of_bare {r : SchemaRules Schema}
    (hbare : r.required = [] ∧ r.properties = [] ∧ r.additional = none ∧ r.items = none ∧
      r.pattern = none)
    (hminimum : ∀ limit, r.minimum = some limit → lineFeeds limit.text = 0)
    (hmaximum : ∀ limit, r.maximum = some limit → lineFeeds limit.text = 0) :
    (Schema.rules r).Every IsPlain := by
  obtain ⟨hrequired, hproperties, hadditional, hitems, hpattern⟩ := hbare
  have hplain : IsPlain r :=
    ⟨by simp [hrequired], by simp [hproperties], by simp [hadditional], by simp [hpattern],
      hminimum, hmaximum⟩
  exact .rules hplain (by simp [hproperties]) (by simp [hadditional]) (by simp [hitems])

theorem every_isPlain_anyText : anyText.Every IsPlain :=
  every_isPlain_of_bare ⟨rfl, rfl, rfl, rfl, rfl⟩ nofun nofun

theorem every_isPlain_textUpTo (limit : Nat) : (textUpTo limit).Every IsPlain :=
  every_isPlain_of_bare ⟨rfl, rfl, rfl, rfl, rfl⟩ nofun nofun

theorem lineFeeds_text_int (n : Nat) : lineFeeds (Number.int n).text = 0 := lineFeeds_nat n

theorem every_isPlain_size : size.Every IsPlain := by
  refine every_isPlain_of_bare ⟨rfl, rfl, rfl, rfl, rfl⟩ ?_ nofun
  rintro limit ⟨⟩
  exact lineFeeds_text_int 0

theorem every_isPlain_color : color.Every IsPlain := by
  refine every_isPlain_of_bare ⟨rfl, rfl, rfl, rfl, rfl⟩ ?_ ?_
  · rintro limit ⟨⟩
    exact lineFeeds_text_int 0
  · rintro limit ⟨⟩
    exact lineFeeds_text_int 16777215

theorem every_isPlain_closedObject {required : List String} {properties : List (String × Schema)}
    (hrequired : ∀ name ∈ required, lineFeeds name = 0)
    (hnamed : ∀ name ∈ properties.map Prod.fst, lineFeeds name = 0)
    (hparts : ∀ schema ∈ properties.map Prod.snd, schema.Every IsPlain) :
    (closedObject required properties).Every IsPlain := by
  rw [List.forall_mem_map] at hnamed hparts
  refine .rules ⟨hrequired, hnamed, ?_, nofun, nofun, nofun⟩ hparts ?_ nofun
  · rintro schema ⟨⟩
    rfl
  · rintro schema ⟨⟩
    exact .always false

theorem every_isPlain_media {required : List String}
    (hrequired : ∀ name ∈ required, lineFeeds name = 0) :
    (closedObject required mediaProperties).Every IsPlain := by
  refine every_isPlain_closedObject hrequired (by decide +kernel) ?_
  simp only [mediaProperties, List.map_cons, List.map_nil, List.forall_mem_cons]
  exact ⟨every_isPlain_size, every_isPlain_anyText, every_isPlain_anyText, every_isPlain_size,
    List.forall_mem_nil _⟩

theorem every_isPlain_embedField : embedField.Every IsPlain := by
  refine every_isPlain_closedObject (by decide +kernel) (by decide +kernel) ?_
  simp only [List.map_cons, List.map_nil, List.forall_mem_cons]
  exact ⟨every_isPlain_of_bare ⟨rfl, rfl, rfl, rfl, rfl⟩ nofun nofun, every_isPlain_textUpTo 256,
    every_isPlain_textUpTo 1024, List.forall_mem_nil _⟩

theorem every_isPlain_embed : embed.Every IsPlain := by
  have hauthor : (closedObject ["name"] [("icon_url", anyText), ("name", textUpTo 256),
      ("proxy_icon_url", anyText), ("url", anyText)]).Every IsPlain := by
    refine every_isPlain_closedObject (by decide +kernel) (by decide +kernel) ?_
    simp only [List.map_cons, List.map_nil, List.forall_mem_cons]
    exact ⟨every_isPlain_anyText, every_isPlain_textUpTo 256, every_isPlain_anyText,
      every_isPlain_anyText, List.forall_mem_nil _⟩
  have hfields : (Schema.rules
      { types := [.array], maxItems := some 25, items := some embedField }).Every IsPlain := by
    refine .rules ⟨nofun, nofun, nofun, nofun, nofun, nofun⟩ nofun nofun ?_
    rintro schema ⟨⟩
    exact every_isPlain_embedField
  have hfooter : (closedObject ["text"] [("icon_url", anyText), ("proxy_icon_url", anyText),
      ("text", textUpTo 2048)]).Every IsPlain := by
    refine every_isPlain_closedObject (by decide +kernel) (by decide +kernel) ?_
    simp only [List.map_cons, List.map_nil, List.forall_mem_cons]
    exact ⟨every_isPlain_anyText, every_isPlain_anyText, every_isPlain_textUpTo 2048,
      List.forall_mem_nil _⟩
  have hprovider : (closedObject [] [("name", anyText), ("url", anyText)]).Every IsPlain := by
    refine every_isPlain_closedObject nofun (by decide +kernel) ?_
    simp only [List.map_cons, List.map_nil, List.forall_mem_cons]
    exact ⟨every_isPlain_anyText, every_isPlain_anyText, List.forall_mem_nil _⟩
  refine every_isPlain_closedObject nofun (by decide +kernel) ?_
  simp only [List.map_cons, List.map_nil, List.forall_mem_cons]
  exact ⟨hauthor, every_isPlain_color, every_isPlain_textUpTo 4096, hfields, hfooter,
    every_isPlain_media (by decide +kernel), hprovider, every_isPlain_media (by decide +kernel),
    every_isPlain_anyText, every_isPlain_textUpTo 256, every_isPlain_anyText,
    every_isPlain_anyText, every_isPlain_media nofun, List.forall_mem_nil _⟩

end Schema

/-! ## Names that are quoted -/

/-- The name that a problem quotes from the payload: that of a property that is not allowed. -/
def Problem.property? : Problem → Option String
  | violation v => v.additionalProperty?
  | _ => none

/-- The number of line feeds in the name that a problem quotes. -/
def Problem.breaks (p : Problem) : Nat := (p.property?.map lineFeeds).getD 0

theorem newline_notMem_escapeToken {token : String} (h : lineFeeds token = 0) :
    '\n' ∉ escapeToken token := by
  intro hmem
  obtain ⟨c, hc, hchar⟩ := List.mem_flatMap.1 hmem
  split_ifs at hchar
  · exact absurd hchar (by decide)
  · exact absurd hchar (by decide)
  · rw [← List.mem_singleton.1 hchar] at hc
    exact lineFeeds_eq_zero_iff.1 h hc

theorem newline_notMem_pointer {path : List String} (h : ∀ token ∈ path, lineFeeds token = 0) :
    '\n' ∉ (pointer path).toList := by
  rw [pointer, String.toList_ofList, List.mem_flatMap]
  rintro ⟨token, htoken, hmem⟩
  rcases List.mem_cons.1 hmem with hslash | hmem
  · exact absurd hslash (by decide)
  · exact newline_notMem_escapeToken (h token htoken) hmem

theorem Violation.mem_path_of_mem_place {v : Violation} {c : Char} (h : c ∈ v.place.toList) :
    c ∈ v.path.toList := by
  unfold place at h
  split at h
  · next first rest hpath =>
    split_ifs at h
    · rw [hpath]
      exact List.mem_cons_of_mem first (by simpa using h)
    · cases h
  · cases h

/-- A plain failure is worded in one line, up to the name that it quotes. -/
theorem Schema.Failure.IsPlain.lineFeeds_message {f : Failure} (h : f.IsPlain) :
    lineFeeds (Problem.violation f.violation).message =
      (Problem.violation f.violation).breaks := by
  show lineFeeds f.violation.description = (f.violation.additionalProperty?.map lineFeeds).getD 0
  unfold Violation.description
  cases f.violation.additionalProperty? with
  | some name =>
    rw [lineFeeds_between]
    · rfl
    all_goals decide +kernel
  | none =>
    have hpath : lineFeeds f.violation.place = 0 :=
      lineFeeds_eq_zero_iff.2 fun hmem =>
        newline_notMem_pointer h.path (Violation.mem_path_of_mem_place hmem)
    have hmessage : lineFeeds f.violation.message = 0 := Cause.lineFeeds_message h.quoted
    simp only [lineFeeds_append, hpath, hmessage]
    decide +kernel

theorem Diagnostic.lineFeeds_display (d : Diagnostic) :
    lineFeeds d.display = lineFeeds d.message := by
  have hrange : lineFeeds (toString d.first ++ "-" ++ toString d.last) = 0 := by
    simp only [lineFeeds_append, lineFeeds_nat]
    decide +kernel
  have hseverity : lineFeeds d.severity.name = 0 := by cases d.severity <;> decide +kernel
  obtain ⟨lines, hlines, hdisplay⟩ : ∃ lines, lineFeeds lines = 0 ∧
      d.display = lines ++ ": " ++ d.severity.name ++ ": " ++ d.message := by
    refine ⟨_, ?_, rfl⟩
    split_ifs
    · exact lineFeeds_nat d.first
    · exact hrange
  rw [hdisplay, lineFeeds_behind]
  simp only [lineFeeds_append, hlines, hseverity]
  decide +kernel

theorem Marker.lineFeeds_display (m : Marker) : lineFeeds m.display = lineFeeds m.message := by
  refine lineFeeds_behind ?_ m.message
  simp only [lineFeeds_append, lineFeeds_nat]
  decide +kernel

/-! ## What an analysis finds -/

namespace Problem

/-- Whether a problem is worded in one line, up to the name that it quotes. -/
def IsWorded (p : Problem) : Prop := lineFeeds p.message = p.breaks

/-- Whether the wording of a problem holds no text but its own. -/
def isFormulaic : Problem → Bool
  | violation _ | undefinedTag _ | other _ _ => false
  | _ => true

theorem isWorded_of_isFormulaic {p : Problem} (h : p.isFormulaic = true) : p.IsWorded := by
  have hbreaks : p.breaks = 0 := by cases p <;> first | rfl | cases h
  rw [IsWorded, hbreaks]
  unfold message
  cases p with
  | component problem => exact problem.lineFeeds_message
  | command fault => cases fault <;> decide +kernel
  | payloadParameter kind => cases kind <;> decide +kernel
  | payloadText kind => cases kind <;> decide +kernel
  | emptyField field => cases field <;> decide +kernel
  | tooLong limit =>
    simp only [lineFeeds_append, lineFeeds_nat]
    decide +kernel
  | unknownCommand | attachmentUrl | secondAttachment | secondTag | tagTaken | pinParameter =>
    decide +kernel
  | violation | undefinedTag | other => cases h

theorem isWorded_undefinedTag {name : String} (h : lineFeeds name = 0) :
    (undefinedTag name).IsWorded := by
  show lineFeeds (undefinedTag name).message = 0
  unfold message
  simp only [lineFeeds_append, show lineFeeds (toString name) = 0 from h]
  decide +kernel

end Problem

/-- Whether findings are worded in one line each, up to names that they quote. -/
structure Findings.AreWorded (findings : Findings) : Prop where
  diagnostics : ∀ d ∈ findings.diagnostics, d.problem.IsWorded
  markers : ∀ m ∈ findings.markers, lineFeeds m.message = 0

namespace Findings

theorem AreWorded.empty : AreWorded {} := ⟨nofun, nofun⟩

theorem AreWorded.append {a b : Findings} (ha : a.AreWorded) (hb : b.AreWorded) :
    (a ++ b).AreWorded :=
  ⟨List.forall_mem_append.2 ⟨ha.diagnostics, hb.diagnostics⟩,
    List.forall_mem_append.2 ⟨ha.markers, hb.markers⟩⟩

theorem areWorded_onLine {problems : List Problem} (h : ∀ p ∈ problems, p.IsWorded) (line : Nat) :
    (onLine line problems).AreWorded :=
  ⟨List.forall_mem_map.2 h, nofun⟩

end Findings

section Directives

variable {rules : Ruleset}

theorem areWorded_payload
    (hrules : ∀ value, ∀ v ∈ rules.validate value, (Problem.violation v).IsWorded)
    (doc : Document) (kind : PayloadKind) (line : Nat) (block : Block) (payload : Payload) :
    (payload.findings rules doc kind line block).AreWorded := by
  cases payload with
  | plain => exact .empty
  | refused =>
    exact Findings.areWorded_onLine
      (List.forall_mem_singleton.2 (Problem.isWorded_of_isFormulaic rfl)) line
  | malformed error =>
    refine ⟨List.forall_mem_singleton.2 (Problem.isWorded_of_isFormulaic rfl), ?_⟩
    intro m hm
    have hmarker := Option.mem_toList.1 hm
    rw [Payload.marker?] at hmarker
    split_ifs at hmarker
    cases hmarker
    exact Json.lineFeeds_message error
  | parsed value =>
    cases kind with
    | embed =>
      refine ⟨List.forall_mem_append.2 ⟨?_, ?_⟩, List.forall_mem_nil _⟩
      · exact List.forall_mem_map.2 fun text _ => Problem.isWorded_of_isFormulaic rfl
      · exact List.forall_mem_map.2 fun v hv => hrules _ v hv
    | componentsV2 =>
      exact Findings.areWorded_onLine (List.forall_mem_map.2 fun problem _ =>
        Problem.isWorded_of_isFormulaic rfl) line

theorem areWorded_runText
    (hrules : ∀ value, ∀ v ∈ rules.validate value, (Problem.violation v).IsWorded)
    (doc : Document) (line : Nat) (body : String) (block : Block) (tags : Tags) :
    (Command.runText rules doc line body block tags).findings.AreWorded := by
  have hone {p : Problem} (h : p.isFormulaic = true) : (Findings.onLine line [p]).AreWorded :=
    Findings.areWorded_onLine (List.forall_mem_singleton.2 (Problem.isWorded_of_isFormulaic h)) line
  have hif {condition : Bool} {p : Problem} (h : p.isFormulaic = true) :
      ∀ q ∈ problemIf condition p, q.IsWorded := by
    intro q hq
    rw [(mem_problemIf.1 hq).2]
    exact Problem.isWorded_of_isFormulaic h
  unfold Command.runText
  cases Command.parse body with
  | error fault => exact hone rfl
  | ok command =>
    simp only [Command.run]
    rcases Directive.ofName? command.name with _ | (_ | _ | _ | kind | _)
    · exact hone rfl
    · exact Findings.areWorded_onLine
        (List.forall_mem_append.2 ⟨hif rfl, hif rfl⟩) line
    · exact Findings.areWorded_onLine
        (List.forall_mem_append.2 ⟨hif rfl, hif rfl⟩) line
    · exact Findings.areWorded_onLine (hif rfl) line
    · exact areWorded_payload hrules doc kind line block _
    · exact .empty

namespace Segmentation

theorem State.areWorded_step
    (hrules : ∀ value, ∀ v ∈ rules.validate value, (Problem.violation v).IsWorded)
    (s : State) (doc : Document) (number : Nat) (line : String) :
    (s.step rules doc number line).2.findings.AreWorded := by
  rcases (Line.classify line).kind_cases with ⟨text, hkind⟩ | hkind | ⟨body, hkind⟩
  · rw [step_of_text hkind, addContent]
    split <;> exact .empty
  · rw [step_of_separator hkind, separate]
    split <;> exact .empty
  · rw [step_of_directive hkind]
    exact areWorded_runText hrules doc number body _ _

theorem areWorded_segment
    (hrules : ∀ value, ∀ v ∈ rules.validate value, (Problem.violation v).IsWorded)
    (doc : Document) : (segment rules doc).findings.AreWorded :=
  State.feed_induction (fun _ _ out => out.findings.AreWorded) doc.lines .empty
    fun _ _ s _ _ hout => hout.append (s.areWorded_step hrules doc _ _)

end Segmentation

end Directives

theorem Block.isWorded_of_mem_diagnostics {block : Block} {limits : Limits} {tags : Tags}
    {d : Diagnostic} (hd : d ∈ block.diagnostics limits tags) : d.problem.IsWorded := by
  rcases List.mem_append.1 hd with hd | hd
  · obtain ⟨name, hname, rfl⟩ := List.mem_map.1 hd
    obtain ⟨line, -, hline⟩ := List.mem_filterMap.1 (List.mem_filter.1 hname).1
    exact Problem.isWorded_undefinedTag (lineFeeds_of_reference? hline)
  · split at hd
    · rw [List.mem_singleton.1 hd]
      exact Problem.isWorded_of_isFormulaic rfl
    · cases hd

/-- With the schema of embeds, all findings are worded in one line each, up to names that they
    quote. -/
theorem areWorded_analyze (limits : Limits) (text : String) :
    Findings.AreWorded ⟨(analyze (.standard limits) text).diagnostics,
      (analyze (.standard limits) text).markers⟩ := by
  have hrules : ∀ value, ∀ v ∈ (Ruleset.standard limits).validate value,
      (Problem.violation v).IsWorded := by
    intro value v hv
    obtain ⟨f, hf, rfl⟩ := List.mem_map.1 hv
    exact (Schema.isPlain_of_mem_failures Schema.every_isPlain_embed value f hf).lineFeeds_message
  have hsegment := Segmentation.areWorded_segment hrules (Document.ofText text)
  rw [diagnostics_analyze, markers_analyze]
  refine ⟨List.forall_mem_append.2 ⟨hsegment.diagnostics, ?_⟩, hsegment.markers⟩
  intro d hd
  obtain ⟨block, -, hd⟩ := List.mem_flatMap.1 hd
  exact block.isWorded_of_mem_diagnostics hd

/-! ## Whole reports -/

/-- A diagnostic or a marker. -/
inductive Finding
  | diagnostic (d : Diagnostic)
  | marker (m : Marker)

namespace Finding

/-- The text of a finding in a report. -/
def display : Finding → String
  | diagnostic d => d.display
  | marker m => m.display

/-- The number of line feeds in the name that a finding quotes. -/
def breaks : Finding → Nat
  | diagnostic d => d.problem.breaks
  | marker _ => 0

end Finding

namespace FileReport

/-- The findings of a report in the order in which they are written. -/
def findings (report : FileReport) : List Finding :=
  report.analysis.diagnostics.map .diagnostic ++ report.analysis.markers.map .marker

theorem textLines_eq (report : FileReport) :
    report.textLines =
      report.findings.map fun finding =>
        Files.display report.path ++ ":" ++ finding.display := by
  rw [textLines, findings, List.map_append, List.map_map, List.map_map]
  rfl

theorem length_textLines (report : FileReport) :
    report.textLines.length =
      report.analysis.diagnostics.length + report.analysis.markers.length := by
  rw [textLines, List.length_append, List.length_map, List.length_map]

/-- A finding is written in one line, up to the name that it quotes. -/
theorem lineFeeds_row {report : FileReport} (hpath : lineFeeds (Files.display report.path) = 0)
    (h : Findings.AreWorded ⟨report.analysis.diagnostics, report.analysis.markers⟩)
    {finding : Finding} (hfinding : finding ∈ report.findings) :
    lineFeeds (Files.display report.path ++ ":" ++ finding.display) = finding.breaks := by
  have hbefore : lineFeeds (Files.display report.path ++ ":") = 0 := by
    rw [lineFeeds_append, hpath]
    decide +kernel
  rw [lineFeeds_behind hbefore]
  rcases List.mem_append.1 hfinding with hmem | hmem
  · obtain ⟨d, hd, rfl⟩ := List.mem_map.1 hmem
    exact d.lineFeeds_display.trans (h.diagnostics d hd)
  · obtain ⟨m, hm, rfl⟩ := List.mem_map.1 hmem
    exact m.lineFeeds_display.trans (h.markers m hm)

end FileReport

theorem toList_isPrefix_append (before after : String) :
    before.toList <+: (before ++ after).toList := by
  rw [String.toList_append]
  exact List.prefix_append _ _

/-- **What a text report has a line for.** It writes a row for each finding, behind the path of the
    file, and ends the row with a line feed. A row is one line, unless it is about a property that
    is not allowed and the name of that has line feeds in it; these are in the row as well. There
    are as many lines as findings if and only if no such name has a line feed. -/
theorem render_text_rows {tree : Files.Tree} {limits : Limits} {files : List Files.Path}
    {reports : List FileReport} (h : files.mapM (tree.reportOn (.standard limits)) = .ok reports)
    (hpaths : ∀ file ∈ files, '\n'.toUInt8 ∉ file) :
    (∃ rows : List (List String), renderText reports = terminated rows.flatten ∧
      List.Forall₂ (fun lines report =>
        List.Forall₂ (fun line finding =>
          (Files.display report.path ++ ":").toList <+: line.toList ∧
          lineFeeds line = finding.breaks) lines report.findings) rows reports) ∧
    (lineFeeds (renderText reports) =
        (reports.map fun r => r.analysis.diagnostics.length + r.analysis.markers.length).sum ↔
      ∀ report ∈ reports, ∀ finding ∈ report.findings, finding.breaks = 0) := by
  have hrow : ∀ report ∈ reports, ∀ finding ∈ report.findings,
      lineFeeds (Files.display report.path ++ ":" ++ finding.display) = finding.breaks := by
    intro report hreport finding hfinding
    obtain ⟨file, hfile, hon⟩ := Files.exists_of_mem_right (Files.mapM_ok h) hreport
    obtain ⟨text, -, heq⟩ := Files.Tree.reportOn_ok hon
    have hpath : lineFeeds (Files.display report.path) = 0 := by
      rw [heq]
      exact lineFeeds_eq_zero_iff.2 (Files.newline_notMem_display (hpaths file hfile))
    refine FileReport.lineFeeds_row hpath ?_ hfinding
    rw [heq]
    exact areWorded_analyze limits text
  refine ⟨⟨reports.map FileReport.textLines, ?_, ?_⟩, ?_⟩
  · rw [renderText, List.flatMap_def]
  · rw [List.forall₂_map_left_iff, List.forall₂_same]
    intro report hreport
    rw [FileReport.textLines_eq, List.forall₂_map_left_iff, List.forall₂_same]
    intro finding hfinding
    exact ⟨toList_isPrefix_append _ _, hrow report hreport finding hfinding⟩
  · have hlength : (reports.flatMap FileReport.textLines).length =
        (reports.map fun r => r.analysis.diagnostics.length + r.analysis.markers.length).sum := by
      simp only [List.length_flatMap, FileReport.length_textLines]
    rw [renderText, lineFeeds_terminated, hlength, Nat.add_eq_left,
      List.sum_eq_zero_iff_forall_eq_nat, List.forall_mem_map, List.forall_mem_flatMap]
    refine forall₂_congr fun report hreport => ?_
    rw [FileReport.textLines_eq, List.forall_mem_map]
    refine forall₂_congr fun finding hfinding => ?_
    rw [hrow report hreport finding hfinding]

theorem mapM_reportOn_singleton {tree : Files.Tree} {file : Files.Path} {text : String}
    (rules : Ruleset)
    (h : tree.find? file = some (.file text.toUTF8)) :
    [file].mapM (tree.reportOn rules) = .ok [⟨file, analyze rules text⟩] := by
  have hbytes : String.fromUTF8? text.toUTF8 = some text := dif_pos text.isValidUTF8
  have hon : tree.reportOn rules file = .ok ⟨file, analyze rules text⟩ := by
    rw [Files.Tree.reportOn, Files.Tree.readText_eq_ok_iff.2 ⟨_, h, hbytes⟩]
  rw [List.mapM_cons, hon]
  rfl

/-- A directive that is no command, and a payload that ends too early: three findings in three
    lines. -/
theorem render_text_rows_unfinished :
    let text := ".bogus\n---\n\x7b\n.embed:json"
    let file := Files.bytes "a.txt"
    let tree : Files.Tree := ⟨.folder [(file, .file text.toUTF8)], []⟩
    let reports : List FileReport := [⟨file, analyze (.standard {}) text⟩]
    [file].mapM (tree.reportOn (.standard {})) = .ok reports ∧
      (∀ path ∈ [file], '\n'.toUInt8 ∉ path) ∧ lineFeeds (renderText reports) = 3 := by
  intro text file tree reports
  have hreports : [file].mapM (tree.reportOn (.standard {})) = .ok reports :=
    mapM_reportOn_singleton (.standard {}) (by rfl)
  have hpaths : ∀ path ∈ [file], '\n'.toUInt8 ∉ path := by decide +kernel
  have hnames : ∀ report ∈ reports, ∀ finding ∈ report.findings, finding.breaks = 0 := by
    decide +kernel
  have hcount := (render_text_rows hreports hpaths).2.2 hnames
  refine ⟨hreports, hpaths, hcount.trans ?_⟩
  decide +kernel

/-- A line feed in the name of a property takes a second line, which has no path. -/
theorem not_one_line_per_finding :
    ¬ ∀ (tree : Files.Tree) (limits : Limits) (files : List Files.Path)
        (reports : List FileReport),
      files.mapM (tree.reportOn (.standard limits)) = .ok reports →
      (∀ file ∈ files, '\n'.toUInt8 ∉ file) →
      lineFeeds (renderText reports) =
        (reports.map fun r => r.analysis.diagnostics.length + r.analysis.markers.length).sum := by
  intro h
  let text := "\x7b\"a\\nb\": 1\x7d\n.embed:json"
  let file := Files.bytes "a.txt"
  have hcount := h ⟨.folder [(file, .file text.toUTF8)], []⟩ {} [file]
    [⟨file, analyze (.standard {}) text⟩] (mapM_reportOn_singleton (.standard {}) (by rfl))
    (by decide +kernel)
  exact absurd hcount (by decide +kernel)

end GuideCheck
