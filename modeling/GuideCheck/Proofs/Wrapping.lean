import GuideCheck.Proofs.Reports
import Mathlib.Data.List.TakeWhile

set_option autoImplicit false

/-! # What an embed directive reports, however the embed is wrapped

A payload may be an embed, or have one under `embed`, or a list of them under `embeds`.
`Embed.Selects` says which value is taken, by the shapes of these members and after the message text
is taken out of the payload. What is reported depends on this value alone: an error for every empty
text in its fields, the places being those of `Embed.EmptyTexts` in their order, and then one for
every violation. An embed without members of the three names is therefore reported on in the same
words in each of the three wrappings (`embed_reports`). -/

namespace GuideCheck

/-! ## The embed of a payload -/

/-- Taking the message text out of a payload leaves its other members as they are. -/
theorem Json.get?_withoutContent {key : String} (h : key ≠ "content") (payload : Json) :
    payload.withoutContent.get? key = payload.get? key := by
  cases payload with
  | obj members =>
    simp only [withoutContent, get?]
    induction members with
    | nil => rfl
    | cons member rest ih =>
      obtain ⟨name, value⟩ := member
      by_cases hname : name = "content"
      · have hne : (key == "content") = false := beq_eq_false_iff_ne.2 h
        rw [List.filter_cons_of_neg (by simpa using hname), ih, List.lookup_cons, hname, hne]
      · rw [List.filter_cons_of_pos (by simpa using hname), List.lookup_cons, List.lookup_cons, ih]
  | _ => rfl

namespace Embed

/-- Whether a value is the embed of a payload. -/
inductive Selects (payload : Json) : Json → Prop
  /-- the first of `embeds` -/
  | first {embed : Json} {rest : List Json}
      (hembeds : payload.get? "embeds" = some (.arr (embed :: rest))) : Selects payload embed
  /-- nothing, where `embeds` counts as true and has no first item -/
  | absent {embeds : Json} (hembeds : payload.get? "embeds" = some embeds)
      (htrue : embeds.isTrue = true) (hnone : ∀ embed rest, embeds ≠ .arr (embed :: rest)) :
      Selects payload .null
  /-- `embed`, if that counts as true and `embeds` does not -/
  | member {embed : Json} (hembeds : Json.truthy (payload.get? "embeds") = false)
      (hembed : payload.get? "embed" = some embed) (htrue : embed.isTrue = true) :
      Selects payload embed
  /-- the payload without its message text, if neither counts as true -/
  | root (hembeds : Json.truthy (payload.get? "embeds") = false)
      (hembed : Json.truthy (payload.get? "embed") = false) :
      Selects payload payload.withoutContent

theorem select_of_embeds {payload embeds : Json} (h : payload.get? "embeds" = some embeds)
    (htrue : embeds.isTrue = true) :
    select payload = (embeds.items?.bind List.head?).getD .null := by
  simp [select, h, Json.truthy, htrue]

theorem select_of_embed {payload embed : Json}
    (hembeds : Json.truthy (payload.get? "embeds") = false)
    (h : payload.get? "embed" = some embed) (htrue : embed.isTrue = true) :
    select payload = embed := by
  have htruthy : Json.truthy (some embed) = true := htrue
  simp [select, hembeds, h, htruthy]

theorem select_of_not_truthy {payload : Json}
    (hembeds : Json.truthy (payload.get? "embeds") = false)
    (hembed : Json.truthy (payload.get? "embed") = false) : select payload = payload := by
  simp [select, hembeds, hembed]

/-- A member that counts as true is there. -/
theorem exists_of_truthy {value : Option Json} (h : Json.truthy value = true) :
    ∃ found, value = some found ∧ found.isTrue = true :=
  (Option.any_eq_true _ _).1 h

/-- Every payload has one embed, and it is the one that is checked. -/
theorem selects_iff (payload embed : Json) :
    Selects payload embed ↔ embed = select payload.withoutContent := by
  have hembeds : payload.withoutContent.get? "embeds" = payload.get? "embeds" :=
    Json.get?_withoutContent (by decide) payload
  have hembed : payload.withoutContent.get? "embed" = payload.get? "embed" :=
    Json.get?_withoutContent (by decide) payload
  constructor
  · intro h
    cases h with
    | first h =>
      rw [select_of_embeds (hembeds.trans h) rfl]
      rfl
    | @absent embeds h htrue hnone =>
      rw [select_of_embeds (hembeds.trans h) htrue]
      cases embeds with
      | arr items =>
        cases items with
        | nil => rfl
        | cons item rest => exact absurd rfl (hnone item rest)
      | _ => rfl
    | member hfalse h htrue =>
      exact (select_of_embed (hembeds ▸ hfalse) (hembed.trans h) htrue).symm
    | root hfalse hfalse' =>
      exact (select_of_not_truthy (hembeds ▸ hfalse) (hembed ▸ hfalse')).symm
  · rintro rfl
    by_cases htruthy : Json.truthy (payload.get? "embeds") = true
    · obtain ⟨embeds, h, htrue⟩ := exists_of_truthy htruthy
      rw [select_of_embeds (hembeds.trans h) htrue]
      by_cases hfirst : ∃ first rest, embeds = .arr (first :: rest)
      · obtain ⟨first, rest, rfl⟩ := hfirst
        exact .first h
      · have hnone : (embeds.items?.bind List.head?).getD .null = .null := by
          cases embeds with
          | arr items =>
            cases items with
            | nil => rfl
            | cons first rest => exact absurd ⟨first, rest, rfl⟩ hfirst
          | _ => rfl
        rw [hnone]
        exact .absent h htrue fun first rest heq => hfirst ⟨first, rest, heq⟩
    · rw [Bool.not_eq_true] at htruthy
      by_cases htruthy' : Json.truthy (payload.get? "embed") = true
      · obtain ⟨embed, h, htrue⟩ := exists_of_truthy htruthy'
        rw [select_of_embed (hembeds ▸ htruthy) (hembed.trans h) htrue]
        exact .member htruthy h htrue
      · rw [Bool.not_eq_true] at htruthy'
        rw [select_of_not_truthy (hembeds ▸ htruthy) (hembed ▸ htruthy')]
        exact .root htruthy htruthy'

/-! ## Empty texts -/

theorem trim_eq_nil_iff (cs : List Char) : Text.trim cs = [] ↔ ∀ c ∈ cs, Text.isBlank c = true := by
  have hrest : Text.trim cs = [] ↔ ∀ c ∈ cs.dropWhile Text.isBlank, Text.isBlank c = true := by
    simp [Text.trim, Text.trimEnd, Text.trimStart, List.dropWhile_eq_nil_iff]
  rw [hrest]
  constructor
  · intro h c hc
    rw [← List.takeWhile_append_dropWhile (p := Text.isBlank) (l := cs)] at hc
    exact (List.mem_append.1 hc).elim List.mem_takeWhile_imp (h c)
  · intro h c hc
    exact h c ((List.dropWhile_sublist _).subset hc)

/-- Whether an embed has a field at an index. -/
def HasField (embed : Json) (index : Nat) (field : Json) : Prop :=
  ∃ fields, embed.get? "fields" = some (.arr fields) ∧ fields[index]? = some field

/-- Whether a text of a field is there and nothing is left of it when it is trimmed. -/
def TrimsToNothing (field : Json) (text : FieldText) : Prop :=
  ∃ string, field.get? text.key = some (.str string) ∧ Text.trim string.toList = []

/-- Whether a text of one field stands before a text of another or the same one. -/
inductive Precedes : Nat × FieldText → Nat × FieldText → Prop
  | field {i j : Nat} {text other : FieldText} (h : i < j) : Precedes (i, text) (j, other)
  | name {i : Nat} : Precedes (i, .name) (i, .value)

/-- Whether places are those of the empty texts of an embed, each once and in order. -/
structure EmptyTexts (embed : Json) (places : List (Nat × FieldText)) : Prop where
  ordered : places.Pairwise Precedes
  mem_iff : ∀ index text, (index, text) ∈ places ↔
    ∃ field, HasField embed index field ∧ TrimsToNothing field text

theorem isEmptyText_iff (field : Json) (text : FieldText) :
    isEmptyText field text = true ↔ TrimsToNothing field text := by
  simp only [isEmptyText, TrimsToNothing, Option.any_eq_true, Option.bind_eq_some_iff,
    trim_eq_nil_iff, List.all_eq_true]
  constructor
  · rintro ⟨string, ⟨value, hvalue, hstring⟩, hblank⟩
    cases value <;> cases hstring
    exact ⟨string, hvalue, hblank⟩
  · rintro ⟨string, hvalue, hblank⟩
    exact ⟨string, ⟨_, hvalue, rfl⟩, hblank⟩

/-- The places of the empty texts of an embed. -/
def emptyPlaces (embed : Json) : List (Nat × FieldText) :=
  (((embed.get? "fields").bind Json.items?).getD []).zipIdx.flatMap fun (field, index) =>
    ([FieldText.name, FieldText.value].filter (isEmptyText field)).map (index, ·)

/-- The texts at these places are those that are reported. -/
theorem map_snd_emptyPlaces (embed : Json) :
    (emptyPlaces embed).map Prod.snd = emptyTexts embed := by
  unfold emptyPlaces emptyTexts
  generalize ((embed.get? "fields").bind Json.items?).getD [] = fields
  have hfields : fields = fields.zipIdx.map Prod.fst := (List.zipIdx_map_fst 0 fields).symm
  conv_rhs => rw [hfields]
  simp only [List.map_flatMap, List.flatMap_map, List.map_map, Function.comp_def, List.map_id']

theorem hasField_iff (embed : Json) (index : Nat) (field : Json) :
    HasField embed index field ↔
      (((embed.get? "fields").bind Json.items?).getD [])[index]? = some field := by
  unfold HasField
  cases embed.get? "fields" with
  | none => simp
  | some value => cases value <;> simp [Json.items?]

theorem mem_emptyPlaces_iff (embed : Json) (index : Nat) (text : FieldText) :
    (index, text) ∈ emptyPlaces embed ↔
      ∃ field, HasField embed index field ∧ TrimsToNothing field text := by
  have hlisted : text ∈ [FieldText.name, FieldText.value] := by cases text <;> simp
  simp only [emptyPlaces, List.mem_flatMap, List.mem_map, List.mem_filter, hasField_iff,
    ← isEmptyText_iff]
  constructor
  · rintro ⟨⟨field, i⟩, hfield, other, ⟨-, hempty⟩, ⟨⟩⟩
    exact ⟨field, List.mk_mem_zipIdx_iff_getElem?.1 hfield, hempty⟩
  · rintro ⟨field, hfield, hempty⟩
    exact ⟨(field, index), List.mk_mem_zipIdx_iff_getElem?.2 hfield, text, ⟨hlisted, hempty⟩, rfl⟩

theorem pairwise_emptyPlaces (embed : Json) : (emptyPlaces embed).Pairwise Precedes := by
  unfold emptyPlaces
  generalize ((embed.get? "fields").bind Json.items?).getD [] = fields
  have hindices : fields.zipIdx.Pairwise fun a b => a.2 < b.2 := by
    have hrange : (fields.zipIdx.map Prod.snd).Pairwise (· < ·) := by
      rw [List.zipIdx_map_snd]
      exact List.pairwise_lt_range' 1
    exact List.pairwise_map.1 hrange
  refine List.pairwise_flatMap.2
    ⟨fun entry _ => ?_, hindices.imp fun hlt place hplace next hnext => ?_⟩
  · have hboth : [FieldText.name, FieldText.value].Pairwise fun text other =>
        Precedes (entry.2, text) (entry.2, other) := by
      simp [Precedes.name]
    exact List.pairwise_map.2 (hboth.filter _)
  · obtain ⟨text, -, rfl⟩ := List.mem_map.1 hplace
    obtain ⟨other, -, rfl⟩ := List.mem_map.1 hnext
    exact .field hlt

theorem emptyTexts_emptyPlaces (embed : Json) : EmptyTexts embed (emptyPlaces embed) :=
  ⟨pairwise_emptyPlaces embed, mem_emptyPlaces_iff embed⟩

/-! ## Wrappers -/

/-- Whether a payload is an embed or a wrapper around it. -/
inductive Wraps (embed : Json) : Json → Prop
  | bare : Wraps embed embed
  | embed : Wraps embed (.obj [("embed", embed)])
  | embeds (rest : List Json) : Wraps embed (.obj [("embeds", .arr (embed :: rest))])

/-- An object that has no embed of its own and no message text is the embed of each wrapper. -/
theorem Wraps.selects {members : List (String × Json)} {payload : Json}
    (h : Wraps (.obj members) payload)
    (hnone : ∀ key ∈ ["content", "embeds", "embed"], members.lookup key = none) :
    Selects payload (.obj members) := by
  have hcontent : members.lookup "content" = none := hnone _ (by simp)
  have hembeds : members.lookup "embeds" = none := hnone _ (by simp)
  have hembed : members.lookup "embed" = none := hnone _ (by simp)
  cases h with
  | bare =>
    have hsame : (Json.obj members).withoutContent = .obj members := by
      refine congrArg Json.obj (List.filter_eq_self.2 fun member hmember => ?_)
      have hne : ("content" == member.1) = false := by
        simpa using List.lookup_eq_none_iff.1 hcontent member hmember
      exact decide_eq_true (beq_eq_false_iff_ne.1 hne).symm
    have hroot : Selects (.obj members) (Json.obj members).withoutContent :=
      .root (by simp [Json.get?, hembeds, Json.truthy]) (by simp [Json.get?, hembed, Json.truthy])
    rwa [hsame] at hroot
  | embed => exact .member rfl rfl rfl
  | embeds rest => exact .first rfl

/-! ## The directive -/

section

variable {rules : Ruleset} {doc : Document} {line : Nat} {body : String} {block : Block}
  {tags : Tags} {payload embed : Json}

theorem findings_runText (hbody : Command.parse body = .ok ⟨"embed", "json"⟩)
    (hread : Payload.read "json" block.text = .parsed payload) :
    (Command.runText rules doc line body block tags).findings =
      check doc rules.validate line payload := by
  have hname : Directive.ofName? "embed" = some (.payload .embed) := rfl
  simp only [Command.runText, hbody, Command.run, hname, hread, Payload.findings]

/-- What is said about a payload is settled by its embed. -/
theorem messages_check (h : Selects payload embed) (validate : Validator) :
    (check doc validate line payload).diagnostics.map Diagnostic.message =
      ((emptyTexts embed).map Problem.emptyField ++ (validate embed).map Problem.violation).map
        Problem.message := by
  have hproblems := problems_check doc validate line payload
  rw [← (selects_iff payload embed).1 h] at hproblems
  rw [← hproblems, Findings.problems, List.map_map]
  rfl

end

/-- **An embed directive reports exactly the empty texts and the violations of its embed.** A
    payload has one embed. The directive makes an error for each empty text in the fields of the
    embed, field by field and the name before the value, then one for each violation in the order of
    the validator, and nothing else. An object without members `content`, `embeds` and `embed` is
    reported on in the same words as it stands, under `embed`, and as the first of `embeds`. -/
theorem embed_reports (rules : Ruleset) {body : String}
    (hbody : Command.parse body = .ok ⟨"embed", "json"⟩) :
    (∀ (doc : Document) (line : Nat) (block : Block) (tags : Tags) (payload : Json),
      Payload.read "json" block.text = .parsed payload →
        ∃ embed places, (∀ other, Selects payload other ↔ other = embed) ∧
          EmptyTexts embed places ∧
          (Command.runText rules doc line body block tags).findings =
            ⟨places.map (fun place => .onLine ((doc.emptyPropertyLine? place.2.key).getD line)
                (.emptyField place.2)) ++
              (rules.validate embed).map fun v =>
                .onLine ((doc.recoverLine? v).getD line) (.violation v), []⟩ ∧
          ∀ d ∈ (Command.runText rules doc line body block tags).findings.diagnostics,
            d.isError = true) ∧
    ∀ (members : List (String × Json)),
      (∀ key ∈ ["content", "embeds", "embed"], members.lookup key = none) →
      ∀ payload payload', Wraps (.obj members) payload → Wraps (.obj members) payload' →
      ∀ (doc doc' : Document) (line line' : Nat) (block block' : Block) (tags tags' : Tags),
        Payload.read "json" block.text = .parsed payload →
        Payload.read "json" block'.text = .parsed payload' →
        (Command.runText rules doc line body block tags).findings.diagnostics.map
            Diagnostic.message =
          (Command.runText rules doc' line' body block' tags').findings.diagnostics.map
            Diagnostic.message := by
  constructor
  · intro doc line block tags payload hread
    have hfindings : (Command.runText rules doc line body block tags).findings =
        check doc rules.validate line payload := findings_runText hbody hread
    refine ⟨select payload.withoutContent, emptyPlaces _, selects_iff payload,
      emptyTexts_emptyPlaces _, ?_, ?_⟩
    · rw [hfindings, check, ← map_snd_emptyPlaces, List.map_map]
      rfl
    · rw [hfindings]
      intro d hd
      rcases List.mem_append.1 hd with hd | hd
      · obtain ⟨text, -, rfl⟩ := List.mem_map.1 hd
        rfl
      · obtain ⟨v, -, rfl⟩ := List.mem_map.1 hd
        rfl
  · intro members hnone payload payload' hwraps hwraps' doc doc' line line' block block' tags tags'
      hread hread'
    rw [findings_runText hbody hread, findings_runText hbody hread',
      messages_check (hwraps.selects hnone), messages_check (hwraps'.selects hnone)]

/-- A field with two empty texts, in a payload of two embeds and in one of its own. -/
theorem embed_reports_first :
    let rules : Ruleset := ⟨fun _ => [⟨"/title", "type", "must be string", []⟩], {}⟩
    let bare : Block :=
      { firstLine := 1, text := "\n\x7b\"fields\":[\x7b\"name\":\" \",\"value\":\"\"\x7d]\x7d" }
    let wrapped : Block :=
      { firstLine := 1
        text :=
          "\n\x7b\"embeds\":[\x7b\"fields\":[\x7b\"name\":\" \",\"value\":\"\"\x7d]\x7d,7]\x7d" }
    let findings (block : Block) :=
      (Command.runText rules ⟨[]⟩ 2 "embed:json" block {}).findings
    (∀ d ∈ (findings wrapped).diagnostics, d.isError = true) ∧
      (findings wrapped).diagnostics.map Diagnostic.message =
        (findings bare).diagnostics.map Diagnostic.message ∧
      (findings bare).diagnostics.map Diagnostic.message =
        ["JSON embed object is invalid: \"name\" is empty in an embed field",
          "JSON embed object is invalid: \"value\" is empty in an embed field",
          "'title' must be string"] := by
  intro rules bare wrapped findings
  have hbody : Command.parse "embed:json" = .ok ⟨"embed", "json"⟩ := by rfl
  have hwrapped : Payload.read "json" wrapped.text = .parsed (.obj [("embeds", .arr [.obj
      [("fields", .arr [.obj [("name", .str " "), ("value", .str "")]])], .num (.int 7)])]) := by
    have hchars : wrapped.text.toList = _ := String.toList_ofList
    rw [Payload.read, hchars]
    rfl
  have hbare : Payload.read "json" bare.text = .parsed (.obj
      [("fields", .arr [.obj [("name", .str " "), ("value", .str "")]])]) := by
    have hchars : bare.text.toList = _ := String.toList_ofList
    rw [Payload.read, hchars]
    rfl
  have hreports := embed_reports rules hbody
  obtain ⟨embed, places, -, -, -, herrors⟩ := hreports.1 ⟨[]⟩ 2 wrapped {} _ hwrapped
  exact ⟨herrors, hreports.2 _ (by decide) _ _ (.embeds [_]) .bare ⟨[]⟩ ⟨[]⟩ 2 2 wrapped bare {} {}
    hwrapped hbare, by decide +kernel⟩

end Embed

end GuideCheck
