import GuideCheck.Block
import GuideCheck.Component.Check
import GuideCheck.Embed
import GuideCheck.Tags

set_option autoImplicit false

/-! # What directives do

A directive acts on the block before it and on the declared tags, and makes findings. What it does
to block and tags does not depend on the schema and the limits, only the findings do. Findings stand
on the line of the directive unless a payload gives a better one. -/

namespace GuideCheck

/-- What payloads are checked against. -/
structure Ruleset where
  /-- the violations of an embed -/
  validate : Validator
  limits : Limits

/-- A block, the declared tags, and the findings made on the way there. -/
structure Outcome where
  block : Block
  tags : Tags
  findings : Findings := {}

/-! ## Attachments, tags and pins -/

/-- Whether a parameter names an address that can be fetched. -/
def isAddress (param : String) : Bool :=
  Text.occursIn "http://".toList param.toList || Text.occursIn "https://".toList param.toList

def attachProblems (param : String) (block : Block) : List Problem :=
  problemIf (!isAddress param) .attachmentUrl ++ problemIf block.attachment .secondAttachment

def tagProblems (param : String) (block : Block) (tags : Tags) : List Problem :=
  problemIf block.tag.isSome .secondTag ++ problemIf (tags.contains param) .tagTaken

/-- The block after a tag is declared; a tag that is taken leaves it as it is. -/
def Block.declare (block : Block) (tags : Tags) (param : String) : Block :=
  if tags.contains param then block else { block with tag := some param }

/-! ## Payloads -/

namespace Payload

/-- The block after its text was read as a payload. -/
def settle (block : Block) : Payload → Block
  | plain => block
  | refused | malformed _ => block.discardText
  | parsed value => block.replaceText value.content

/-- The marker of a payload that is not JSON. The text of a block that was not rewritten is line by
    line the text of the document after one empty line. -/
def marker? (block : Block) : Payload → Option Marker
  | malformed error =>
    if block.rewritten ∨ block.text = "" then none
    else
      some ⟨block.firstLine + max error.position.line 2 - 2, error.position.column, error.message⟩
  | _ => none

/-- The findings in a payload whose directive stands on a line. -/
def findings (rules : Ruleset) (doc : Document) (kind : PayloadKind) (line : Nat) (block : Block)
    (payload : Payload) : Findings :=
  match payload with
  | plain => {}
  | refused => .onLine line [.payloadParameter kind]
  | malformed _ => { Findings.onLine line [.payloadText kind] with
      markers := (payload.marker? block).toList }
  | parsed value =>
    match kind with
    | .embed => Embed.check doc rules.validate line value
    | .componentsV2 => .onLine line ((Component.check rules.limits value).map .component)

end Payload

/-! ## Directives -/

namespace Command

/-- What a command on a line does to the block before it and to the declared tags. -/
def run (rules : Ruleset) (doc : Document) (line : Nat) (command : Command) (block : Block)
    (tags : Tags) : Outcome :=
  match Directive.ofName? command.name with
  | none => ⟨block, tags, .onLine line [.unknownCommand]⟩
  | some .attach =>
    ⟨{ block with attachment := true }, tags, .onLine line (attachProblems command.param block)⟩
  | some .tag =>
    ⟨block.declare tags command.param, tags.insert command.param,
      .onLine line (tagProblems command.param block tags)⟩
  | some .pin =>
    ⟨block, tags,
      .onLine line (problemIf (command.param ≠ "delete" && command.param ≠ "") .pinParameter)⟩
  | some (.payload kind) =>
    let payload := Payload.read command.param block.text
    ⟨payload.settle block, tags, payload.findings rules doc kind line block⟩
  | some .react => ⟨block, tags, {}⟩

/-- What the text of a directive does, a text that is no command being a problem of its line. -/
def runText (rules : Ruleset) (doc : Document) (line : Nat) (body : String) (block : Block)
    (tags : Tags) : Outcome :=
  match parse body with
  | .ok command => command.run rules doc line block tags
  | .error fault => ⟨block, tags, .onLine line [.command fault]⟩

end Command

end GuideCheck
