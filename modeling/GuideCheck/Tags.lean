set_option autoImplicit false

/-! # Declared tags

The tags that directives of a document declare; each is kept once. -/

namespace GuideCheck

/-- The tags declared so far. -/
structure Tags where
  names : List String := []
deriving DecidableEq, Repr

namespace Tags

def contains (tags : Tags) (name : String) : Bool := name ∈ tags.names

/-- The tags with one more declared; a tag that is declared already changes nothing. -/
def insert (tags : Tags) (name : String) : Tags :=
  if tags.contains name then tags else ⟨name :: tags.names⟩

theorem contains_insert (tags : Tags) (name other : String) :
    (tags.insert name).contains other = (tags.contains other || decide (other = name)) := by
  unfold insert
  split
  next h =>
    by_cases e : other = name
    · subst e; simp [h]
    · simp [e]
  next h => simp [contains, Bool.or_comm]

end Tags

end GuideCheck
