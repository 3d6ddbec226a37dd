import GuideCheck.Schema.Basic

set_option autoImplicit false

/-! # The schema of embeds

What the platform accepts as an embed: an object whose parts are texts of limited length, addresses,
numbers and smaller objects. No object may have members that are not named. -/

namespace GuideCheck.Schema

def anyText : Schema := .rules { types := [.string] }

/-- A string of at most so many characters. -/
def textUpTo (limit : Nat) : Schema := .rules { types := [.string], maxLength := some limit }

/-- An integer that is not negative. -/
def size : Schema := .rules { types := [.integer], minimum := some (.int 0) }

def color : Schema :=
  .rules { types := [.integer], minimum := some (.int 0), maximum := some (.int 16777215) }

/-- An object with these properties and no others, of which some are required. -/
def closedObject (required : List String) (properties : List (String × Schema)) : Schema :=
  .rules { types := [.object], required, properties, additional := some (.always false) }

/-- The properties of a picture or video: an address and a size. -/
def mediaProperties : List (String × Schema) :=
  [("height", size), ("proxy_url", anyText), ("url", anyText), ("width", size)]

def embedField : Schema :=
  closedObject ["name", "value"]
    [("inline", .rules { types := [.boolean] }), ("name", textUpTo 256), ("value", textUpTo 1024)]

def embed : Schema :=
  closedObject []
    [("author", closedObject ["name"]
        [("icon_url", anyText), ("name", textUpTo 256), ("proxy_icon_url", anyText),
          ("url", anyText)]),
      ("color", color),
      ("description", textUpTo 4096),
      ("fields", .rules { types := [.array], maxItems := some 25, items := some embedField }),
      ("footer", closedObject ["text"]
        [("icon_url", anyText), ("proxy_icon_url", anyText), ("text", textUpTo 2048)]),
      ("image", closedObject ["url"] mediaProperties),
      ("provider", closedObject [] [("name", anyText), ("url", anyText)]),
      ("thumbnail", closedObject ["url"] mediaProperties),
      ("timestamp", anyText),
      ("title", textUpTo 256),
      ("type", anyText),
      ("url", anyText),
      ("video", closedObject [] mediaProperties)]

end GuideCheck.Schema
