import GuideCheck.Interpretation
import GuideCheck.Schema.Check
import GuideCheck.Schema.Embed

set_option autoImplicit false

/-! # Rule sets made from schemas -/

namespace GuideCheck.Ruleset

/-- Checks embeds against a schema and everything else against limits. -/
def ofSchema (schema : Schema) (limits : Limits) : Ruleset := ⟨schema.validate, limits⟩

/-- Checks embeds against the schema of the platform. -/
def standard (limits : Limits) : Ruleset := ofSchema .embed limits

end GuideCheck.Ruleset
