set_option autoImplicit false

/-! # Blocks

A block is a message while it is built from lines. Each line of its text follows a line feed, so
the text of a block with lines starts with one; it is dropped when the message is finished. -/

namespace GuideCheck

/-- A message that is being built. -/
structure Block where
  firstLine : Nat
  /-- the last line of its text, once it is known -/
  lastLine : Option Nat := none
  text : String := ""
  attachment : Bool := false
  tag : Option String := none
  /-- whether a directive discarded or replaced the text -/
  rewritten : Bool := false
deriving DecidableEq, Repr

namespace Block

/-- The block that starts on a line, with nothing in it. -/
def startingAt (line : Nat) : Block := { firstLine := line }

/-- Whether the block has neither text nor anything attached. -/
def isBlank (block : Block) : Bool := block.text = "" && !block.attachment && block.tag.isNone

/-- The block with one more line of text. -/
def appendLine (block : Block) (line : String) : Block :=
  { block with text := block.text ++ "\n" ++ line }

/-- The block without its text, so that later directives do not complain about it again. -/
def discardText (block : Block) : Block := { block with text := "", rewritten := true }

/-- The block with the text of a payload in place of its own. -/
def replaceText (block : Block) (content : String) : Block :=
  { block with text := if content = "" then "" else "\n" ++ content, rewritten := true }

/-- The block with a last line, if it has none yet. -/
def closeAt (block : Block) (line : Nat) : Block :=
  { block with lastLine := some (block.lastLine.getD line) }

end Block

end GuideCheck
