import GuideCheck.Component
import GuideCheck.Component.Problem
import GuideCheck.Limits
import GuideCheck.Payload

set_option autoImplicit false

/-! # Checking a component tree

The payload must be a container with an array of components. The size of the whole tree is limited;
the other limits and requirements concern the components at the top level and their children.
Problems come in a fixed order: the type of the payload, the size of the tree, then row by row and
section by section the limits on children, and at last component by component what is missing. -/

namespace GuideCheck.Component

/-! ## Limits on children -/

/-- The select menus among the children of an action row that have too many options. -/
def optionProblems (limits : Limits) (position : Nat) (row : List Json) : List Problem :=
  row.flatMap fun child =>
    match (child.get? "options").bind Json.items? with
    | some options =>
      problemIf (child.kind? = some .stringSelect && limits.selectOptions < options.length)
        (.tooManyOptions position limits.selectOptions options.length)
    | none => []

def rowProblems (limits : Limits) (position : Nat) (row : List Json) : List Problem :=
  problemIf (limits.actionRowChildren < row.length)
      (.tooManyRowChildren position limits.actionRowChildren row.length) ++
    optionProblems limits position row

def sectionProblems (limits : Limits) (position : Nat) (children : List Json) : List Problem :=
  problemIf (limits.sectionChildren < children.length)
    (.tooManySectionChildren position limits.sectionChildren children.length)

/-- The problems with the numbers of rows and of children, from a position on; `rows` is the number
    of action rows before it. -/
def containerProblems (limits : Limits) (rows position : Nat) : List Json → List Problem
  | [] => []
  | component :: rest =>
    let children := component.children?.getD []
    match component.kind? with
    | some .actionRow =>
      problemIf (limits.actionRows < rows + 1) (.tooManyRows limits.actionRows (rows + 1)) ++
        rowProblems limits position children ++
        containerProblems limits (rows + 1) (position + 1) rest
    | some .textSection =>
      sectionProblems limits position children ++
        containerProblems limits rows (position + 1) rest
    | _ => containerProblems limits rows (position + 1) rest

/-! ## Requirements of single components -/

/-- Whether a spacing is missing, counts as false, or is a number out of bounds; what is no number
    is left to the platform. -/
def badSpacing (limits : Limits) (spacing : Option Json) : Bool :=
  !Json.truthy spacing ||
    match spacing.bind Json.number? with
    | some n =>
      let x := n.toDouble
      x < Double.ofInt limits.spacingMin || Double.ofInt limits.spacingMax < x
    | none => false

def sectionTextProblems (position : Nat) (children : List Json) : List Problem :=
  children.zipIdx.flatMap fun (text, index) =>
    problemIf (text.kind? = some .textDisplay && Json.blank (text.get? "content"))
      (.emptySectionText position (index + 1))

def galleryProblems (position : Nat) (items : List Json) : List Problem :=
  if items.isEmpty then [.emptyGallery position]
  else
    items.zipIdx.flatMap fun (item, index) =>
      problemIf (!Json.truthy ((item.get? "media").bind (Json.get? "url")))
        (.missingMedia position (index + 1))

/-- The problems of one component by its kind. -/
def kindProblems (limits : Limits) (position : Nat) (component : Json) : List Problem :=
  match component.kind? with
  | some .textSection => sectionTextProblems position (component.children?.getD [])
  | some .textDisplay =>
    problemIf (Json.blank (component.get? "content")) (.emptyText position)
  | some .mediaGallery =>
    galleryProblems position (((component.get? "items").bind Json.items?).getD [])
  | some .spacer =>
    problemIf (badSpacing limits (component.get? "spacing"))
      (.spacing position limits.spacingMin limits.spacingMax)
  | _ => []

def componentProblems (limits : Limits) (position : Nat) (component : Json) : List Problem :=
  problemIf (!Json.truthy (component.get? "type")) (.missingType position) ++
    kindProblems limits position component

/-! ## The payload -/

def treeProblems (limits : Limits) (components : List Json) : List Problem :=
  let total := Json.componentCounts components
  problemIf (limits.componentsPerMessage < total)
      (.tooManyComponents limits.componentsPerMessage total) ++
    containerProblems limits 0 1 components ++
    components.zipIdx.flatMap fun (component, index) =>
      componentProblems limits (index + 1) component

def check (limits : Limits) (payload : Json) : List Problem :=
  problemIf (payload.kind? ≠ some .container) .rootType ++
    match payload.children? with
    | some components => treeProblems limits components
    | none => [.missingComponents]

end GuideCheck.Component
