import GuideCheck.Block
import GuideCheck.Finding
import GuideCheck.Limits
import GuideCheck.Tags
import GuideCheck.Text.Lines
import GuideCheck.Text.Search
import GuideCheck.Text.Units

set_option autoImplicit false

/-! # Messages

A closed block becomes a message: the line feed before its first line is dropped, link marks become
a stand-in link, and zero-width spaces keep the platform from trimming the text. A line that ends in
an underscore and a name refers to a tag, which should be declared somewhere in the document. -/

namespace GuideCheck

/-- A message as it would be sent. -/
structure Message where
  text : String
  firstLine : Nat
  lastLine : Nat
  attachment : Bool
  tag : Option String
deriving DecidableEq, Repr

/-! ## References to tags -/

/-- An ASCII letter or digit, as names of tags in references are made of. -/
def isNameChar (c : Char) : Bool := c.isAlphanum

/-- The name that a line refers to at its end: an underscore, then letters and digits of which the
    last does not belong to the name. -/
def reference? (line : List Char) : Option String :=
  let word := line.reverse.takeWhile isNameChar
  match line.reverse.dropWhile isNameChar with
  | '_' :: _ => some (String.ofList word.reverse.dropLast)
  | _ => none

/-- The names that the lines of a text refer to. -/
def references (text : String) : List String :=
  (Text.displayLines text.toList).filterMap reference?

/-! ## Links -/

/-- What stands for a link until messages are sent. -/
def placeholderLink : String :=
  "https://discordapp.com/channels/00000000000000000000/00000000000000000000/00000000000000000000"

/-- What a link mark begins with. -/
def linkOpening : List Char := "$linkmsg_".toList

/-- The rest of a text after the dollar that ends a link mark, if it stands on the same line. -/
def afterDollar? : List Char → Option (List Char)
  | [] => none
  | c :: cs =>
    if c = '$' then some cs else if c = '\r' ∨ c = '\n' then none else afterDollar? cs

/-- The rest of a text after a link mark at its beginning. -/
def afterLink? (text : List Char) : Option (List Char) :=
  (Text.stripPrefix? linkOpening text).bind afterDollar?

theorem length_afterDollar? {text rest : List Char} (h : afterDollar? text = some rest) :
    rest.length < text.length := by
  induction text with
  | nil => simp [afterDollar?] at h
  | cons c cs ih =>
    simp only [afterDollar?] at h
    split at h
    · simp_all
    · split at h
      · simp at h
      · simpa using Nat.lt_succ_of_lt (ih h)

theorem length_afterLink? {text rest : List Char} (h : afterLink? text = some rest) :
    rest.length < text.length := by
  obtain ⟨middle, hm, hr⟩ := Option.bind_eq_some_iff.1 h
  have := length_afterDollar? hr
  have := congrArg List.length (Text.stripPrefix?_eq_some_iff.1 hm)
  simp at this
  omega

/-- The text with the stand-in link for every link mark, from the left. -/
def replaceLinkChars (text : List Char) : List Char :=
  match h : afterLink? text with
  | some rest =>
    have := length_afterLink? h
    placeholderLink.toList ++ replaceLinkChars rest
  | none =>
    match text with
    | [] => []
    | c :: cs => c :: replaceLinkChars cs
termination_by text.length

/-- The text with the stand-in link for every link mark. -/
def replaceLinks (text : String) : String := String.ofList (replaceLinkChars text.toList)

/-! ## Padding -/

def zeroWidthSpace : Char := '\u200b'

/-- The text with zero-width spaces where the platform would trim it: before a space or line feed at
    the start, after a line feed at the end, and in place of nothing. -/
def pad (text : String) : String :=
  match text.toList with
  | [] => String.singleton zeroWidthSpace
  | c :: cs =>
    let before := if c = ' ' ∨ c = '\n' then [zeroWidthSpace] else []
    let after := if (c :: cs).getLast? = some '\n' then [zeroWidthSpace] else []
    String.ofList (before ++ c :: cs ++ after)

/-! ## Finishing -/

/-- The text of a block without the line feed before its first line. -/
def Block.body (block : Block) : String :=
  match block.text.toList with
  | '\n' :: rest => String.ofList rest
  | _ => block.text

namespace Message

/-- The message that a block becomes. -/
def ofBlock (block : Block) : Message where
  text := pad (replaceLinks block.body)
  firstLine := block.firstLine
  lastLine := block.lastLine.getD block.firstLine
  attachment := block.attachment
  tag := block.tag

/-- A problem of the whole message. -/
def problem (m : Message) (problem : Problem) : Diagnostic := ⟨m.firstLine, m.lastLine, problem⟩

/-- The length of the text as the platform counts it. -/
def length (m : Message) : Nat := Text.units16 m.text.toList

end Message

/-- The problems of a finished block: references to tags that are not declared, then the length. -/
def Block.diagnostics (limits : Limits) (tags : Tags) (block : Block) : List Diagnostic :=
  let message := Message.ofBlock block
  let undefined := (references block.text).filter fun name => !tags.contains name
  undefined.map (fun name => message.problem (.undefinedTag name)) ++
    if limits.messageLength < message.length then
      [message.problem (.tooLong limits.messageLength)]
    else []

end GuideCheck
