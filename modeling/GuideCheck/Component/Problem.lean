set_option autoImplicit false

/-! # What can be wrong with a component tree

Trees that the platform rejects are errors; what it accepts but shows badly is a warning. Positions
and indices count from one. -/

namespace GuideCheck

/-- How bad a problem is. -/
inductive Severity
  /-- the guide could not be sent, or its structure is invalid -/
  | error
  /-- the guide can be sent, but not as intended -/
  | warning
deriving DecidableEq, Repr

def Severity.name : Severity → String
  | error => "error"
  | warning => "warning"

/-- One problem if a condition holds. -/
def problemIf {α : Type} (condition : Bool) (problem : α) : List α :=
  if condition then [problem] else []

theorem mem_problemIf {α : Type} {condition : Bool} {problem p : α} :
    p ∈ problemIf condition problem ↔ condition = true ∧ p = problem := by
  cases condition <;> simp [problemIf]

namespace Component

/-- A problem of a component tree. -/
inductive Problem
  | rootType
  | tooManyComponents (limit found : Nat)
  | missingComponents
  | tooManyRows (limit found : Nat)
  | tooManyRowChildren (position limit found : Nat)
  | tooManyOptions (position limit found : Nat)
  | tooManySectionChildren (position limit found : Nat)
  | missingType (position : Nat)
  | emptySectionText (position index : Nat)
  | emptyText (position : Nat)
  | emptyGallery (position : Nat)
  | missingMedia (position index : Nat)
  | spacing (position low high : Nat)
deriving DecidableEq, Repr

namespace Problem

def severity : Problem → Severity
  | emptySectionText .. | emptyText _ | emptyGallery _ | missingMedia .. | spacing .. => .warning
  | _ => .error

def message : Problem → String
  | rootType => "ComponentsV2 must have type: 17"
  | tooManyComponents limit found =>
    s!"ComponentsV2 exceeds Discord's {limit} component limit per message " ++
      s!"(found {found} components)"
  | missingComponents => "ComponentsV2 must have a components array"
  | tooManyRows limit found =>
    s!"Too many Action Rows (type 1): Discord allows maximum {limit} action rows per message " ++
      s!"(found {found})"
  | tooManyRowChildren position limit found =>
    s!"Action Row {position} exceeds component limit: Discord allows maximum {limit} " ++
      s!"components per action row (found {found})"
  | tooManyOptions position limit found =>
    s!"Select Menu in Action Row {position} exceeds options limit: Discord allows maximum " ++
      s!"{limit} options per select menu (found {found})"
  | tooManySectionChildren position limit found =>
    s!"Section component (type 9) at index {position} exceeds limit: Discord allows maximum " ++
      s!"{limit} components per section (found {found})"
  | missingType position => s!"Component {position} is missing required type property"
  | emptySectionText position index =>
    s!"Component {position} text block {index} has empty content"
  | emptyText position => s!"Component {position} (type 10) has empty content"
  | emptyGallery position =>
    s!"Component {position} (type 12) should have items array with at least one item"
  | missingMedia position index => s!"Component {position} item {index} is missing media.url"
  | spacing position low high =>
    s!"Component {position} spacing should be between {low}-{high}"

end Problem

end Component

end GuideCheck
