import GuideCheck.Json.Value

set_option autoImplicit false

/-! # Components

A component is a JSON object whose `type` is the code of its kind. Components nest through arrays
under the key `components`; an `accessory` counts as a component of its own but is not looked
into. -/

namespace GuideCheck

/-- The kinds of components that the rules speak of. -/
inductive ComponentKind
  | actionRow
  | button
  | stringSelect
  | textSection
  | textDisplay
  | thumbnail
  | mediaGallery
  | file
  | spacer
  | container
deriving DecidableEq, Repr

namespace ComponentKind

/-- The kinds in the order of their codes. -/
def all : List ComponentKind :=
  [actionRow, button, stringSelect, textSection, textDisplay, thumbnail, mediaGallery, file, spacer,
    container]

def code : ComponentKind → Nat
  | actionRow => 1
  | button => 2
  | stringSelect => 3
  | textSection => 9
  | textDisplay => 10
  | thumbnail => 11
  | mediaGallery => 12
  | file => 13
  | spacer => 14
  | container => 17

def name : ComponentKind → String
  | actionRow => "ActionRow"
  | button => "Button"
  | stringSelect => "StringSelect"
  | textSection => "Section"
  | textDisplay => "TextDisplay"
  | thumbnail => "Thumbnail"
  | mediaGallery => "MediaGallery"
  | file => "File"
  | spacer => "Spacer"
  | container => "Container"

def ofCode? (code : Nat) : Option ComponentKind := all.find? fun kind => kind.code = code

end ComponentKind

/-- The code that a number stands for: an integer that is not negative, or a double without
    fraction that is not below zero. -/
def Number.code? : Number → Option Nat
  | int value => if 0 ≤ value then some value.toNat else none
  | double value => if value.isWhole ∧ 0 ≤ value.value then some value.floorAbs else none

namespace Json

def kind? (component : Json) : Option ComponentKind :=
  (((component.get? "type").bind number?).bind Number.code?).bind ComponentKind.ofCode?

/-- The components inside a component, if there is an array of them. -/
def children? (component : Json) : Option (List Json) := (component.get? "components").bind items?

def hasAccessory (component : Json) : Bool := (component.get? "accessory").any isObject

/-! ## Counting -/

mutual

/-- The number of components in a tree: one, those inside, and one for an accessory. -/
def componentCount : Json → Nat
  | obj members => 1 + nestedCount members + (if (obj members).hasAccessory then 1 else 0)
  | _ => 1

/-- The number of components in the first member called `components`. -/
def nestedCount : List (String × Json) → Nat
  | [] => 0
  | (key, value) :: rest => if "components" == key then arrayCount value else nestedCount rest

/-- The number of components in an array. -/
def arrayCount : Json → Nat
  | arr items => componentCounts items
  | _ => 0

/-- The number of components in a list of trees. -/
def componentCounts : List Json → Nat
  | [] => 0
  | component :: rest => component.componentCount + componentCounts rest

end

end Json

end GuideCheck
