import GuideCheck.Proofs.Escaping
import GuideCheck.Proofs.Placement
import GuideCheck.Proofs.ReadErrors

set_option autoImplicit false

/-! # Markers name the places of errors in payloads

A payload is the text of a block, and that is line by line the text of the document as long as no
directive has rewritten it. The reader names a line of the payload, so the marker names a line of
the document (`Marker.names_of_parse`). A payload that is no JSON is discarded, and a block without
text gets no marker, so that a block has at most one.

The machine keeps that its markers are those of the closed blocks, in order, and at most one more of
the open block (`Segmentation.Marks`), and that the first payload that is taken from a block has its
marker if it is no JSON (`Segmentation.Noted`). At the end the markers are those of the messages,
and as messages are apart, they are on lines further and further down (`analyze_markers`). -/

namespace GuideCheck

/-! ## What a marker says -/

/-- The marker for an error in the payload whose text starts on a line. -/
def Marker.ofError (firstLine : Nat) (error : Json.ReadError) : Marker :=
  ⟨firstLine + max error.position.line 2 - 2, error.position.column, error.message⟩

/-- Whether a marker names the place where the payload on the lines from `first` to `last` is no
    JSON. There is an empty line at the start of a payload, so that its line `k` is line
    `first + k - 2` of the document. -/
structure Marker.Names (doc : Document) (first last : Nat) (marker : Marker) : Prop where
  inside : first ≤ marker.line ∧ marker.line ≤ last
  place : ∃ error, Json.parse (Json.mendSurrogates (doc.textOf first last).toList) = .error error ∧
    marker.message = error.message ∧ marker.column = error.position.column ∧
    2 ≤ error.position.line ∧ marker.line = first + error.position.line - 2 ∧
    ∃ content, doc.content? marker.line = some content ∧
      (Text.lines (doc.textOf first last).toList)[error.position.line - 1]? = some content.toList

/-- Whether a diagnostic is the error for a payload that is no JSON, on a directive after a line. -/
structure Diagnostic.IsPayloadError (doc : Document) (last : Nat) (d : Diagnostic) : Prop where
  isError : d.isError = true
  message : d.message = "JSON embed object is invalid" ∨
    d.message = "JSON componentsV2 object is invalid"
  onLine : d.first = d.last
  isDirective : doc.IsDirective d.first
  after : last < d.first

/-- What is true of a message with a marker: its payload was discarded and reported, and the marker
    names the place. -/
structure Message.Marked (doc : Document) (diagnostics : List Diagnostic) (message : Message)
    (marker : Marker) : Prop where
  text_eq : message.text = String.singleton zeroWidthSpace
  names : marker.Names doc message.firstLine message.lastLine
  reported : ∃ d ∈ diagnostics, d.IsPayloadError doc message.lastLine

/-- What is true of a block with a marker. -/
structure Block.Marked (doc : Document) (diagnostics : List Diagnostic) (block : Block)
    (marker : Marker) : Prop where
  text_eq : block.text = ""
  place : ∃ last, block.lastLine = some last ∧ marker.Names doc block.firstLine last ∧
    ∃ d ∈ diagnostics, d.IsPayloadError doc last

namespace Block.Marked

variable {doc : Document} {diagnostics : List Diagnostic} {block : Block} {marker : Marker}

theorem mono (h : block.Marked doc diagnostics marker) {more : List Diagnostic}
    (hsub : diagnostics ⊆ more) : block.Marked doc more marker := by
  obtain ⟨last, hlast, hnames, d, hd, herror⟩ := h.place
  exact ⟨h.text_eq, last, hlast, hnames, d, hsub hd, herror⟩

theorem lastLine_ne_none (h : block.Marked doc diagnostics marker) : block.lastLine ≠ none := by
  obtain ⟨last, hlast, -⟩ := h.place
  simp [hlast]

theorem closeAt (h : block.Marked doc diagnostics marker) (line : Nat) :
    (block.closeAt line).Marked doc diagnostics marker := by
  obtain ⟨last, hlast, hplace⟩ := h.place
  exact ⟨h.text_eq, last, by simp [Block.closeAt, hlast], hplace⟩

theorem onBlock (h : block.Marked doc diagnostics marker) (tags : Tags) (effect : Effect) :
    (effect.onBlock block tags).Marked doc diagnostics marker := by
  refine ⟨Effect.text_onBlock_eq_empty tags effect h.text_eq, ?_⟩
  rw [Effect.lastLine_onBlock, Effect.firstLine_onBlock]
  exact h.place

theorem ofBlock (h : block.Marked doc diagnostics marker) :
    (Message.ofBlock block).Marked doc diagnostics marker := by
  obtain ⟨last, hlast, hnames, hreported⟩ := h.place
  have hend : (Message.ofBlock block).lastLine = last := by simp [Message.ofBlock, hlast]
  exact ⟨Message.text_ofBlock_of_empty h.text_eq, hend ▸ hnames, hend ▸ hreported⟩

end Block.Marked

/-- Whether markers are those of some of the blocks, in order and at most one for each. -/
def MarksOf (doc : Document) (diagnostics : List Diagnostic) (markers : List Marker)
    (blocks : List Block) : Prop :=
  List.SublistForall₂ (fun marker block => block.Marked doc diagnostics marker) markers blocks

namespace MarksOf

variable {doc : Document} {diagnostics : List Diagnostic} {markers : List Marker}
  {blocks : List Block}

theorem mono (h : MarksOf doc diagnostics markers blocks) {more : List Diagnostic}
    (hsub : diagnostics ⊆ more) : MarksOf doc more markers blocks := by
  obtain ⟨marked, hmarked, hblocks⟩ := List.sublistForall₂_iff.1 h
  exact List.sublistForall₂_iff.2 ⟨marked, hmarked.imp fun _ _ hm => hm.mono hsub, hblocks⟩

/-- One more block, with a marker or without. -/
theorem concat (h : MarksOf doc diagnostics markers blocks) {block : Block} {here : Option Marker}
    (hblock : ∀ marker ∈ here, block.Marked doc diagnostics marker) :
    MarksOf doc diagnostics (markers ++ here.toList) (blocks ++ [block]) := by
  obtain ⟨marked, hmarked, hsub⟩ := List.sublistForall₂_iff.1 h
  cases here with
  | none =>
    rw [Option.toList_none, List.append_nil]
    exact List.sublistForall₂_iff.2 ⟨marked, hmarked, hsub.trans (List.sublist_append_left _ _)⟩
  | some marker =>
    have hlast : List.Forall₂ (fun marker block => block.Marked doc diagnostics marker)
        (some marker).toList [block] := .cons (hblock marker rfl) .nil
    exact List.sublistForall₂_iff.2
      ⟨marked ++ [block], List.rel_append hmarked hlast, hsub.append (List.Sublist.refl _)⟩

/-- The messages of the blocks have the markers. -/
theorem messages (h : MarksOf doc diagnostics markers blocks) :
    List.SublistForall₂ (fun marker message => message.Marked doc diagnostics marker) markers
      (blocks.map Message.ofBlock) := by
  obtain ⟨marked, hmarked, hsub⟩ := List.sublistForall₂_iff.1 h
  rw [List.sublistForall₂_map_right_iff]
  exact List.sublistForall₂_iff.2 ⟨marked, hmarked.imp fun _ _ hm => hm.ofBlock, hsub⟩

/-- The markers of blocks that are apart are on lines further and further down. -/
theorem pairwise_lines (h : MarksOf doc diagnostics markers blocks) (hgroups : Groups doc blocks) :
    markers.Pairwise fun marker next => marker.line < next.line := by
  obtain ⟨marked, hmarked, hsub⟩ := List.sublistForall₂_iff.1 h
  have hordered := List.pairwise_iff_getElem.1 (hgroups.ordered.sublist hsub)
  obtain ⟨hlength, hget⟩ := List.forall₂_iff_get.1 hmarked
  refine List.pairwise_iff_getElem.2 fun i j hi hj hij => ?_
  -- the marker of a block stands before the end of it, that of a later block after its beginning
  obtain ⟨last, hlast, hnames, -⟩ := (hget i hi (hlength ▸ hi)).place
  obtain ⟨last', -, hnames', -⟩ := (hget j hj (hlength ▸ hj)).place
  have hapart := (hordered i j (hlength ▸ hi) (hlength ▸ hj) hij).2 last hlast
  exact Nat.lt_of_le_of_lt hnames.inside.2 (Nat.lt_of_lt_of_le hapart hnames'.inside.1)

end MarksOf

/-! ## Payloads that are no JSON -/

namespace Document

/-- There are no line feeds in what the lines of a text add to messages. -/
theorem isFeedFree_ofText (text : String) : (ofText text).IsFeedFree := by
  intro k content h
  obtain ⟨line, hline, hcontent⟩ := Option.bind_eq_some_iff.1 h
  cases k with
  | zero => simp [line?] at hline
  | succ k =>
    obtain ⟨raw, hraw, rfl⟩ := Option.map_eq_some_iff.1 hline
    rw [← Line.newline_mem_escape_iff, Line.escape_of_content?_classify hcontent]
    exact notMem_of_mem_lines (List.mem_of_getElem? hraw)

variable {doc : Document} {first last : Nat}

/-- The text of a range begins with a line feed. -/
theorem exists_toList_textOf (hle : first ≤ last)
    (htext : ∀ k, first ≤ k → k ≤ last → doc.IsText k)
    (hfeeds : doc.IsFeedFree) :
    ∃ rest, (doc.textOf first last).toList = '\n' :: rest := by
  have hlines := lines_textOf htext hfeeds
  have hsucc : last + 1 - first = last - first + 1 := by omega
  rw [hsucc, List.range'_succ, List.map_cons] at hlines
  rw [← Text.join_split '\n' (doc.textOf first last).toList,
    show Text.split '\n' _ = _ from hlines]
  exact ⟨_, rfl⟩

end Document

/-- An error in the payload on lines of text is at one of them. -/
theorem Marker.names_of_parse {doc : Document} {first last : Nat} (hle : first ≤ last)
    (htext : ∀ k, first ≤ k → k ≤ last → doc.IsText k)
    (hfeeds : doc.IsFeedFree)
    {error : Json.ReadError}
    (h : Json.parse (Json.mendSurrogates (doc.textOf first last).toList) = .error error) :
    (Marker.ofError first error).Names doc first last := by
  have hlow : 2 ≤ error.position.line := by
    obtain ⟨rest, hrest⟩ := Document.exists_toList_textOf hle htext hfeeds
    rw [hrest, Json.mendSurrogates_cons_newline] at h
    exact Json.two_le_line_of_parse h
  have hhigh : error.position.line ≤ last + 1 - first + 1 := by
    rw [← Document.length_lines_textOf htext hfeeds, Text.lines, Text.length_split,
      ← Json.count_mendSurrogates]
    exact (Json.line_of_parse h).2
  have hmax : max error.position.line 2 = error.position.line := Nat.max_eq_left hlow
  have hfirst : first ≤ first + error.position.line - 2 := by omega
  have hlast : first + error.position.line - 2 ≤ last := by omega
  obtain ⟨content, hcontent⟩ := htext _ hfirst hlast
  have hline := Document.getElem?_lines_textOf htext hfeeds hfirst hlast
  rw [hcontent, show first + error.position.line - 2 - first + 1 = error.position.line - 1 by omega]
    at hline
  rw [ofError, hmax]
  exact ⟨⟨hfirst, hlast⟩, error, h, rfl, rfl, hlow, rfl, content, hcontent, hline⟩

theorem Payload.parse_of_read {param text : String} {error : Json.ReadError}
    (h : read param text = .malformed error) :
    Json.parse (Json.mendSurrogates text.toList) = .error error := by
  unfold read at h
  split at h
  · split at h
    · cases h
    · next herror =>
      cases h
      exact herror
  · cases h
  · cases h

/-- A directive makes no marker, or one for the payload that it finds not to be JSON. -/
theorem Command.markers_runText (rules : Ruleset) (doc : Document) (line : Nat) (body : String)
    (block : Block) (tags : Tags) :
    (runText rules doc line body block tags).findings.markers = [] ∨
      ∃ kind error, block.rewritten = false ∧ block.text ≠ "" ∧
        Json.parse (Json.mendSurrogates block.text.toList) = .error error ∧
        (runText rules doc line body block tags).block = block.discardText ∧
        (runText rules doc line body block tags).findings =
          ⟨[.onLine line (.payloadText kind)], [.ofError block.firstLine error]⟩ := by
  unfold runText
  cases parse body with
  | error fault => exact Or.inl rfl
  | ok command =>
    simp only [run]
    rcases Directive.ofName? command.name with _ | (_ | _ | _ | kind | _)
    · exact Or.inl rfl
    · exact Or.inl rfl
    · exact Or.inl rfl
    · exact Or.inl rfl
    · simp only
      cases hread : Payload.read command.param block.text with
      | plain => exact Or.inl rfl
      | refused => exact Or.inl rfl
      | parsed value => cases kind <;> exact Or.inl rfl
      | malformed error =>
        by_cases hnone : block.rewritten = true ∨ block.text = ""
        · simp [Payload.findings, Payload.marker?, hnone]
        · rw [not_or, Bool.not_eq_true] at hnone
          refine Or.inr ⟨kind, error, hnone.1, hnone.2, Payload.parse_of_read hread, rfl, ?_⟩
          simp [Payload.findings, Payload.marker?, hnone, Findings.onLine, Marker.ofError]
    · exact Or.inl rfl

/-! ## Payloads that a directive takes -/

/-- Whether the directive on line `k` takes the text that ends on an earlier line as a payload: the
    lines between are directives that leave that text alone. -/
structure Document.Takes (doc : Document) (last k : Nat) (param : String) : Prop where
  after : last < k
  takes : ∃ body, doc.line? k = some (.directive body) ∧ Effect.ofBody body = .read param
  between : ∀ j, last < j → j < k → ∃ body, doc.line? j = some (.directive body) ∧
    ∀ other, Effect.ofBody body = .read other → other = ""

/-- Only a directive with a parameter takes the text of a block. -/
theorem Effect.rewritten_onBlock {block : Block} {tags : Tags} {effect : Effect}
    (h : (effect.onBlock block tags).rewritten = true) :
    block.rewritten = true ∨ ∃ param, effect = .read param ∧ param ≠ "" := by
  cases effect with
  | nothing => exact Or.inl h
  | attach => exact Or.inl h
  | declare name =>
    rw [onBlock, Block.declare_eq] at h
    exact Or.inl h
  | read param =>
    by_cases hparam : param = ""
    · rw [hparam] at h
      exact Or.inl h
    · exact Or.inr ⟨param, rfl, hparam⟩

/-- A payload that is no JSON gets a marker if it is the text of the lines of its block. -/
theorem Command.markers_runText_of_malformed (rules : Ruleset) (doc : Document) (line : Nat)
    {body : String} {block : Block} (tags : Tags) {error : Json.ReadError}
    (hbody : Effect.ofBody body = .read "json") (hrewritten : block.rewritten = false)
    (hne : block.text ≠ "")
    (hparse : Json.parse (Json.mendSurrogates block.text.toList) = .error error) :
    (runText rules doc line body block tags).findings.markers =
      [.ofError block.firstLine error] := by
  unfold Effect.ofBody at hbody
  unfold runText
  cases hcommand : parse body with
  | error fault => simp [hcommand] at hbody
  | ok command =>
    rw [hcommand] at hbody
    simp only [run] at hbody ⊢
    rcases hname : Directive.ofName? command.name with _ | (_ | _ | _ | kind | _)
    · simp [hname] at hbody
    · simp [hname] at hbody
    · simp [hname] at hbody
    · simp [hname] at hbody
    · simp only [hname, Effect.read.injEq] at hbody
      simp [hbody, Payload.read, hparse, Payload.findings, Payload.marker?, hrewritten, hne,
        Marker.ofError]
    · simp [hname] at hbody

/-- Directives after lines of text begin no block. -/
theorem Document.not_blockRange_of_directives {doc : Document} {first last k next l : Nat}
    (range : doc.IsBlockRange first last) (hle : first ≤ last)
    (hdirectives : ∀ j, last < j → j ≤ k → doc.IsDirective j) (hfirst : first < next)
    (hnext : next ≤ k) : ¬ doc.IsBlockRange next l := by
  by_cases hlast : next ≤ last
  · exact not_blockRange_of_isText (range.isText (Nat.le_of_lt hfirst) hlast)
      (range.isText (by omega) (by omega))
  · refine not_blockRange_of_isDirective (hdirectives next (by omega) hnext) ?_
    rcases Nat.lt_or_eq_of_le (show last ≤ next - 1 by omega) with hlt | heq
    · exact Or.inr (hdirectives (next - 1) hlt (by omega))
    · exact Or.inl (heq ▸ range.isText hle (Nat.le_refl last))

/-! ## The machine -/

namespace Segmentation

/-- The markers so far are those of closed blocks, and perhaps one of the open block. -/
def Marks (doc : Document) (s : State) (out : Output) : Prop :=
  ∃ (earlier : List Marker) (here : Option Marker),
    out.findings.markers = earlier ++ here.toList ∧
    MarksOf doc out.findings.diagnostics earlier out.blocks ∧
    ∀ marker ∈ here, s.block.Marked doc out.findings.diagnostics marker

namespace Marks

variable {doc : Document} {number : Nat} {s next : State} {out : Output}

theorem initial (doc : Document) : Marks doc State.initial {} :=
  ⟨[], none, rfl, .nil, by simp⟩

/-- A block that is still open for lines of text has no marker, whatever becomes of it. -/
theorem renew (h : Marks doc s out) (hopen : s.block.lastLine = none) : Marks doc next out := by
  obtain ⟨earlier, here, hmarkers, hearlier, hhere⟩ := h
  cases here with
  | none => exact ⟨earlier, none, hmarkers, hearlier, by simp⟩
  | some marker => exact absurd hopen (hhere marker rfl).lastLine_ne_none

/-- The markers are those of the closed blocks and of the open one when it is closed. -/
theorem marksOf_closed (h : Marks doc s out) {block : Block}
    (hblock : ∀ marker, s.block.Marked doc out.findings.diagnostics marker →
      block.Marked doc out.findings.diagnostics marker) :
    MarksOf doc out.findings.diagnostics out.findings.markers (out.blocks ++ [block]) := by
  obtain ⟨earlier, here, hmarkers, hearlier, hhere⟩ := h
  rw [hmarkers]
  exact hearlier.concat fun marker hm => hblock marker (hhere marker hm)

/-- The open block is closed, and the next one has no marker yet. -/
theorem leave (h : Marks doc s out) {block : Block}
    (hblock : ∀ marker, s.block.Marked doc out.findings.diagnostics marker →
      block.Marked doc out.findings.diagnostics marker) :
    Marks doc next (out ++ { blocks := [block] }) :=
  ⟨out.findings.markers, none, by simp, by simpa using h.marksOf_closed hblock, by simp⟩

theorem addContent (h : Marks doc s out) (hreached : Reached doc number s out.blocks)
    (text : String) :
    Marks doc (s.addContent number text).1 (out ++ (s.addContent number text).2) := by
  cases hreached.opened with
  | blank after => exact (Output.append_empty out).symm ▸ h.renew rfl
  | text lt all before => exact (Output.append_empty out).symm ▸ h.renew rfl
  | closed lastLine_eq range lt last_lt directive text => exact h.leave fun _ hm => hm

theorem separate (h : Marks doc s out) (hreached : Reached doc number s out.blocks) :
    Marks doc (s.separate number).1 (out ++ (s.separate number).2) := by
  unfold State.separate
  split
  · next hblank =>
    have hopen : s.block.lastLine = none := by
      cases hreached.opened with
      | blank after => rfl
      | text lt all before => rfl
      | closed => exact absurd hblank.1 (by simp)
    exact (Output.append_empty out).symm ▸ h.renew hopen
  · exact h.leave fun _ hm => hm.closeAt (number - 1)

/-- The block of a payload that is no JSON, after the directive that finds this out. -/
theorem marked_discardText {diagnostics : List Diagnostic}
    (hreached : Reached doc number s out.blocks)
    (hfeeds : doc.IsFeedFree)
    (hline : doc.IsDirective number) {kind : PayloadKind} {error : Json.ReadError}
    (hrewritten : (s.closedBlock number).rewritten = false)
    (hne : (s.closedBlock number).text ≠ "")
    (hparse : Json.parse (Json.mendSurrogates (s.closedBlock number).text.toList) = .error error)
    (hmem : .onLine number (.payloadText kind) ∈ diagnostics) :
    (s.closedBlock number).discardText.Marked doc diagnostics
      (.ofError (s.closedBlock number).firstLine error) := by
  obtain ⟨last, hlast, hlt, range, htext⟩ := hreached.range_closedBlock hline
  have hfirst : (s.closedBlock number).firstLine = s.block.firstLine := by
    rw [hreached.opened.closedBlock_eq]
    rfl
  have hle : s.block.firstLine ≤ last := by
    by_contra hempty
    exact hne (htext.text_empty (by omega))
  rw [htext.text_eq hrewritten, hfirst] at hparse
  refine ⟨rfl, last, hlast, ?_, _, hmem, ?_⟩
  · simp only [Block.discardText, hfirst]
    exact Marker.names_of_parse hle (fun k => range.isText) hfeeds hparse
  · refine ⟨rfl, ?_, rfl, hline, hlt⟩
    cases kind with
    | embed => exact Or.inl rfl
    | componentsV2 => exact Or.inr rfl

theorem direct (h : Marks doc s out) (hreached : Reached doc number s out.blocks)
    (hfeeds : doc.IsFeedFree)
    (hline : doc.IsDirective number) (rules : Ruleset) (search : Document) (body : String) :
    Marks doc (s.direct rules search number body).1
      (out ++ (s.direct rules search number body).2) := by
  obtain ⟨earlier, here, hmarkers, hearlier, hhere⟩ := h
  have hclosed : ∀ marker ∈ here,
      (s.closedBlock number).Marked doc out.findings.diagnostics marker := by
    intro marker hm
    rw [hreached.opened.closedBlock_eq]
    exact (hhere marker hm).closeAt (number - 1)
  have hmono : out.findings.diagnostics ⊆
      (out ++ (s.direct rules search number body).2).findings.diagnostics :=
    List.subset_append_left _ _
  have hblocks : out.blocks = (out ++ (s.direct rules search number body).2).blocks := by simp
  rcases Command.markers_runText rules search number body (s.closedBlock number) s.tags with
    hnone | ⟨kind, error, hrewritten, hne, hparse, hblock, hfindings⟩
  · refine ⟨earlier, here, ?_, hblocks ▸ hearlier.mono hmono, fun marker hm => ?_⟩
    · simp [State.direct, hmarkers, hnone]
    · rw [State.direct_fst]
      exact ((hclosed marker hm).onBlock _ _).mono hmono
  · -- the payload has a text, so there is no marker for it yet
    have hhere : here = none := by
      cases here with
      | none => rfl
      | some marker => exact absurd (hclosed marker rfl).text_eq hne
    refine ⟨earlier, some (.ofError (s.closedBlock number).firstLine error), ?_,
      hblocks ▸ hearlier.mono hmono, ?_⟩
    · simp [State.direct, hmarkers, hhere, hfindings]
    · rintro marker ⟨⟩
      have hmem : .onLine number (.payloadText kind) ∈
          (out ++ (s.direct rules search number body).2).findings.diagnostics := by
        simp [State.direct, hfindings]
      have hmarked := marked_discardText hreached hfeeds hline hrewritten hne hparse hmem
      rwa [← hblock] at hmarked

/-- Feeding the line of a number. -/
theorem step (h : Marks doc s out) (hreached : Reached doc number s out.blocks)
    (hfeeds : doc.IsFeedFree)
    {line : String} (hline : doc.line? number = some (Line.classify line)) (rules : Ruleset)
    (search : Document) :
    Marks doc (s.step rules search number line).1
      (out ++ (s.step rules search number line).2) := by
  rcases (Line.classify line).kind_cases with ⟨text, hkind⟩ | hkind | ⟨body, hkind⟩
  · rw [State.step_of_text hkind]
    exact h.addContent hreached text
  · rw [State.step_of_separator hkind]
    exact h.separate hreached
  · rw [State.step_of_directive hkind]
    exact h.direct hreached hfeeds ⟨body, hline.trans (congrArg some hkind)⟩ rules search body

end Marks

/-! ### No marker is missing -/

/-- Every payload that was taken so far and is no JSON has its marker. -/
structure Noted (doc : Document) (number : Nat) (s : State) (out : Output) : Prop where
  /-- only a directive that takes the payload rewrites the open block -/
  rewritten : s.block.rewritten = true → ∃ last j body param, s.block.lastLine = some last ∧
    last < j ∧ j < number ∧ doc.line? j = some (.directive body) ∧
    Effect.ofBody body = .read param ∧ param ≠ ""
  complete : ∀ first last k error, doc.IsBlockRange first last → first ≤ last → k < number →
    doc.Takes last k "json" →
    Json.parse (Json.mendSurrogates (doc.textOf first last).toList) = .error error →
    .ofError first error ∈ out.findings.markers

namespace Noted

variable {doc : Document} {number : Nat} {s next : State} {out more : Output}

theorem initial (doc : Document) : Noted doc 1 State.initial {} := by
  refine ⟨by simp [State.initial, Block.startingAt], ?_⟩
  intro first last k error range hle hk htakes
  have := htakes.after
  omega

/-- A line that is no directive takes no payload. -/
theorem of_not_isDirective (h : Noted doc number s out) (hline : ¬ doc.IsDirective number)
    (hnext : next.block.rewritten = false)
    (hmarkers : out.findings.markers ⊆ more.findings.markers) :
    Noted doc (number + 1) next more := by
  refine ⟨by simp [hnext], ?_⟩
  intro first last k error range hle hk htakes hparse
  rcases Nat.lt_or_eq_of_le (Nat.lt_succ_iff.1 hk) with hlt | rfl
  · exact hmarkers (h.complete first last k error range hle hlt htakes hparse)
  · obtain ⟨body, hbody, -⟩ := htakes.takes
    exact absurd ⟨body, hbody⟩ hline

/-- The block whose payload a directive takes is the open one, as its lines left it. -/
theorem closedBlock_of_takes (h : Noted doc number s out)
    (hreached : Reached doc number s out.blocks) {first last : Nat} {param : String}
    (range : doc.IsBlockRange first last) (hle : first ≤ last)
    (htakes : doc.Takes last number param) :
    (s.closedBlock number).firstLine = first ∧ (s.closedBlock number).rewritten = false ∧
      (s.closedBlock number).text = doc.textOf first last := by
  obtain ⟨body, hbody, -⟩ := htakes.takes
  obtain ⟨last', hlast', -, range', htext⟩ := hreached.range_closedBlock ⟨body, hbody⟩
  have hdirectives : ∀ j, last < j → j ≤ number → doc.IsDirective j := by
    intro j hj hjn
    rcases Nat.lt_or_eq_of_le hjn with hlt | rfl
    · obtain ⟨other, hother, -⟩ := htakes.between j hj hlt
      exact ⟨other, hother⟩
    · exact ⟨body, hbody⟩
  have hle' : s.block.firstLine ≤ number := by
    rcases hreached.opened.blank_or_begun with ⟨hfirst, -⟩ | ⟨hlt, -⟩ <;> omega
  have hlt := htakes.after
  have hfirst : s.block.firstLine = first := by
    rcases Nat.lt_trichotomy s.block.firstLine first with hbefore | heq | hafter
    · exact absurd range (hreached.quiet first last hbefore (by omega))
    · exact heq
    · exact absurd range'
        (Document.not_blockRange_of_directives range hle hdirectives hafter hle')
  have hlast : last' = last := range'.last_unique (hfirst ▸ range)
  rw [hlast] at htext
  rw [hreached.opened.closedBlock_eq] at hlast' htext ⊢
  have hrewritten : s.block.rewritten = false := by
    by_contra hre
    rw [Bool.not_eq_false] at hre
    obtain ⟨end_, j, other, param', hend, hj, hjn, hother, heffect, hne⟩ := h.rewritten hre
    have hsame : end_ = last := by
      simp only [Block.closeAt, hend, Option.getD_some, Option.some.injEq] at hlast'
      exact hlast'.trans hlast
    obtain ⟨body', hbody', hleaves⟩ := htakes.between j (hsame ▸ hj) hjn
    rw [hother, Option.some.injEq, Line.directive.injEq] at hbody'
    exact hne (hleaves param' (hbody' ▸ heffect))
  have htextOf := htext.text_eq hrewritten
  rw [← hfirst]
  exact ⟨rfl, hrewritten, htextOf⟩

theorem direct (h : Noted doc number s out) (hreached : Reached doc number s out.blocks)
    {body : String} (hline : doc.line? number = some (.directive body)) (rules : Ruleset)
    (search : Document) :
    Noted doc (number + 1) (s.direct rules search number body).1
      (out ++ (s.direct rules search number body).2) := by
  obtain ⟨last', hlast', hlt', -⟩ := hreached.range_closedBlock ⟨body, hline⟩
  refine ⟨fun hre => ?_, fun first last k error range hle hk htakes hparse => ?_⟩
  · rw [State.direct_fst] at hre ⊢
    rw [Effect.lastLine_onBlock]
    rcases Effect.rewritten_onBlock hre with hbefore | ⟨param, heffect, hne⟩
    · rw [hreached.opened.closedBlock_eq] at hbefore ⊢
      obtain ⟨last, j, other, param, hlast, hj, hjn, hrest⟩ := h.rewritten hbefore
      exact ⟨last, j, other, param, by simp [Block.closeAt, hlast], hj, by omega, hrest⟩
    · exact ⟨last', number, body, param, hlast', hlt', by omega, hline, heffect, hne⟩
  · rw [Output.findings_append, Findings.markers_append]
    rcases Nat.lt_or_eq_of_le (Nat.lt_succ_iff.1 hk) with hlt | rfl
    · exact List.mem_append_left _ (h.complete first last k error range hle hlt htakes hparse)
    · obtain ⟨hfirst, hrewritten, htext⟩ := h.closedBlock_of_takes hreached range hle htakes
      obtain ⟨body', hbody', heffect⟩ := htakes.takes
      rw [hline, Option.some.injEq, Line.directive.injEq] at hbody'
      have hne : doc.textOf first last ≠ "" :=
        Document.textOf_ne_empty hle (range.isText hle (Nat.le_refl last))
      have hmarkers := Command.markers_runText_of_malformed rules search k s.tags
        (hbody' ▸ heffect) hrewritten (htext ▸ hne) (htext ▸ hparse)
      refine List.mem_append_right _ ?_
      simp only [State.direct]
      rw [hmarkers, hfirst]
      exact List.mem_singleton.2 rfl

/-- Feeding the line of a number. -/
theorem step (h : Noted doc number s out) (hreached : Reached doc number s out.blocks)
    {line : String} (hline : doc.line? number = some (Line.classify line)) (rules : Ruleset)
    (search : Document) :
    Noted doc (number + 1) (s.step rules search number line).1
      (out ++ (s.step rules search number line).2) := by
  rcases (Line.classify line).kind_cases with ⟨text, hkind⟩ | hkind | ⟨body, hkind⟩
  · have hnot : ¬ doc.IsDirective number := fun hdirective =>
      Document.not_isText_of_isDirective hdirective
        ⟨text, by rw [Document.content?, hline]; exact hkind⟩
    rw [State.step_of_text hkind]
    cases hreached.opened with
    | blank after => exact h.of_not_isDirective hnot rfl (List.subset_append_left _ _)
    | text lt all before => exact h.of_not_isDirective hnot rfl (List.subset_append_left _ _)
    | closed => exact h.of_not_isDirective hnot rfl (List.subset_append_left _ _)
  · have hnot : ¬ doc.IsDirective number :=
      Document.not_isDirective_of_isSeparator (hline.trans (congrArg some hkind))
    rw [State.step_of_separator hkind, State.separate]
    split
    · exact h.of_not_isDirective hnot rfl (List.subset_append_left _ _)
    · exact h.of_not_isDirective hnot rfl (List.subset_append_left _ _)
  · rw [State.step_of_directive hkind]
    exact h.direct hreached (hline.trans (congrArg some hkind)) rules search

end Noted

/-! ### Whole documents -/

/-- What holds of the machine and its markers before the line of a number. -/
structure Noting (doc : Document) (number : Nat) (s : State) (out : Output) : Prop where
  reached : Reached doc number s out.blocks
  marks : Marks doc s out
  noted : Noted doc number s out

/-- The machine after all lines of a document. -/
theorem noting_feed (rules : Ruleset) {doc : Document}
    (hfeeds : doc.IsFeedFree) :
    Noting doc (1 + doc.lineCount) (State.initial.feed rules doc 1 doc.lines).1
      (State.initial.feed rules doc 1 doc.lines).2 := by
  have hnext : ∀ (i : Nat) (line : String) (s : State) (out : Output), doc.lines[i]? = some line →
      Noting doc (1 + i) s out →
      Noting doc (1 + i + 1) (s.step rules doc (1 + i) line).1
        (out ++ (s.step rules doc (1 + i) line).2) := by
    intro i line s out hget h
    have hline := Document.line?_of_getElem? hget
    exact ⟨h.reached.step hline, h.marks.step h.reached hfeeds hline rules doc,
      h.noted.step h.reached hline rules doc⟩
  exact State.feed_induction (Noting doc) doc.lines
    ⟨Reached.initial doc, Marks.initial doc, Noted.initial doc⟩ hnext

/-- The markers of a document are those of its blocks. -/
theorem marksOf_segment (rules : Ruleset) {doc : Document} (hfeeds : doc.IsFeedFree) :
    MarksOf doc (segment rules doc).findings.diagnostics (segment rules doc).findings.markers
      (segment rules doc).blocks :=
  (noting_feed rules hfeeds).marks.marksOf_closed fun _ hm => hm.closeAt doc.lineCount

/-- The first payload that a block loses to a directive has its marker if it is no JSON. -/
theorem ofError_mem_segment (rules : Ruleset) {doc : Document}
    (hfeeds : doc.IsFeedFree)
    {first last k : Nat} {error : Json.ReadError} (range : doc.IsBlockRange first last)
    (hle : first ≤ last) (htakes : doc.Takes last k "json")
    (hparse : Json.parse (Json.mendSurrogates (doc.textOf first last).toList) = .error error) :
    .ofError first error ∈ (segment rules doc).findings.markers := by
  obtain ⟨body, hbody, -⟩ := htakes.takes
  have hk := (Document.bounds_of_isDirective ⟨body, hbody⟩).2
  exact (noting_feed rules hfeeds).noted.complete first last k error range hle (by omega) htakes
    hparse

end Segmentation

/-- **Markers name the places of errors.** The markers of a document are those of some of its
    messages, in order and at most one for each message, on lines further and further down. A marker
    names the line of its message on which the reader finds the fault; the message was discarded,
    and the error is reported on a directive after it. No marker is missing where a directive is the
    first to take the lines of a message for a payload. -/
theorem analyze_markers (rules : Ruleset) (text : String) :
    ((analyze rules text).markers.Pairwise fun marker next => marker.line < next.line) ∧
      List.SublistForall₂
        (fun marker message =>
          message.Marked (Document.ofText text) (analyze rules text).diagnostics marker)
        (analyze rules text).markers (analyze rules text).messages ∧
      ∀ message ∈ (analyze rules text).messages, message.firstLine ≤ message.lastLine →
        ∀ k error, (Document.ofText text).Takes message.lastLine k "json" →
          Json.parse (Json.mendSurrogates ((Document.ofText text).textOf message.firstLine
            message.lastLine).toList) = .error error →
          .ofError message.firstLine error ∈ (analyze rules text).markers := by
  have hfeeds := Document.isFeedFree_ofText text
  have hmarks := Segmentation.marksOf_segment rules hfeeds
  have hgroups := Segmentation.segment_groups rules text
  rw [markers_analyze, messages_analyze, diagnostics_analyze]
  refine ⟨hmarks.pairwise_lines hgroups,
    (hmarks.mono (List.subset_append_left _ _)).messages, fun message hmessage => ?_⟩
  obtain ⟨block, hblock, rfl⟩ := List.mem_map.1 hmessage
  obtain ⟨last, hlast, range⟩ := hgroups.range block hblock
  simp only [Message.ofBlock, hlast, Option.getD_some]
  intro hle k error htakes hparse
  exact Segmentation.ofError_mem_segment rules hfeeds range hle htakes hparse

/-- A payload with a fault on its second line, which has a dot for the escape. -/
theorem analyze_markers_embed :
    (⟨"\u200b", 1, 2, false, none⟩ : Message) ∈
        (analyze ⟨fun _ => [], {}⟩ "\x7b\n..a\n.embed:json").messages ∧
      ⟨2, 1, "key must be a string at line 3 column 1"⟩ ∈
        (analyze ⟨fun _ => [], {}⟩ "\x7b\n..a\n.embed:json").markers := by
  have hmessage : (⟨"\u200b", 1, 2, false, none⟩ : Message) ∈
      (analyze ⟨fun _ => [], {}⟩ "\x7b\n..a\n.embed:json").messages := by decide +kernel
  have htakes : (Document.ofText "\x7b\n..a\n.embed:json").Takes 2 3 "json" :=
    ⟨by decide, ⟨"embed:json", by decide +kernel, by decide +kernel⟩,
      fun j hj hk => absurd hk (by omega)⟩
  have hparse : Json.parse (Json.mendSurrogates
      ((Document.ofText "\x7b\n..a\n.embed:json").textOf 1 2).toList) =
        .error ⟨.keyNotString, ⟨3, 1⟩⟩ := by
    rfl
  exact ⟨hmessage, (analyze_markers _ _).2.2 _ hmessage (by decide) 3 _ htakes hparse⟩

end GuideCheck
