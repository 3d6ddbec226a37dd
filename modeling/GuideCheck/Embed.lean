import GuideCheck.Finding
import GuideCheck.Payload
import GuideCheck.Recovery

set_option autoImplicit false

/-! # Embed payloads

The embed of a payload is the first of its `embeds`, else its `embed`, else the payload itself. Each
field with an empty name or value is an error, and so is each violation of the schema; both are
reported on the line they are guessed to stand on, or else on the line of the directive. -/

namespace GuideCheck.Embed

def select (payload : Json) : Json :=
  if Json.truthy (payload.get? "embeds") then
    (((payload.get? "embeds").bind Json.items?).bind List.head?).getD .null
  else if Json.truthy (payload.get? "embed") then (payload.get? "embed").getD .null
  else payload

/-- Whether a text of a field is a string of blanks. -/
def isEmptyText (field : Json) (text : FieldText) : Bool :=
  ((field.get? text.key).bind Json.text?).any fun s => s.toList.all Text.isBlank

/-- The empty texts in the fields of an embed, field by field. -/
def emptyTexts (embed : Json) : List FieldText :=
  (((embed.get? "fields").bind Json.items?).getD []).flatMap fun field =>
    [FieldText.name, FieldText.value].filter (isEmptyText field)

/-- The findings in an embed payload whose directive stands on a line. -/
def check (doc : Document) (validate : Validator) (line : Nat) (payload : Json) : Findings :=
  let embed := select payload.withoutContent
  let empty := (emptyTexts embed).map fun text =>
    Diagnostic.onLine ((doc.emptyPropertyLine? text.key).getD line) (.emptyField text)
  let violations := (validate embed).map fun v =>
    Diagnostic.onLine ((doc.recoverLine? v).getD line) (.violation v)
  ⟨empty ++ violations, []⟩

end GuideCheck.Embed
