import GuideCheck.Interpretation
import GuideCheck.Line

set_option autoImplicit false

/-! # Segmentation

The lines of a document are fed one by one to a machine with two modes. In content mode lines are
added to the open block; a directive closes the text of the block and enters directive mode, where
further directives act on the same block and content starts a new one. A separator ends the block in
either mode, unless nothing has been added since the last break. Closed blocks and findings leave
the machine as output, so that a run over lines put together is a run over the one and then the
other. -/

namespace GuideCheck.Segmentation

/-- The kind of the last line, as far as it matters. -/
inductive Mode
  /-- lines are added to the open block -/
  | content
  /-- directives act on the open block -/
  | directive
deriving DecidableEq, Repr

/-- The machine between two lines. -/
structure State where
  mode : Mode := .content
  /-- the open block -/
  block : Block
  tags : Tags := {}
deriving DecidableEq, Repr

/-- What leaves the machine: closed blocks in the order of the document, and findings. -/
structure Output where
  blocks : List Block := []
  findings : Findings := {}

/-- The outputs of two runs, one after the other. -/
instance : Append Output := ⟨fun a b => ⟨a.blocks ++ b.blocks, a.findings ++ b.findings⟩⟩

@[simp] theorem Output.blocks_append (a b : Output) : (a ++ b).blocks = a.blocks ++ b.blocks := rfl

@[simp] theorem Output.findings_append (a b : Output) :
    (a ++ b).findings = a.findings ++ b.findings := rfl

namespace State

/-- The machine before the first line. -/
def initial : State := { block := .startingAt 1 }

def startBlock (s : State) (line : Nat) : State :=
  { s with mode := .content, block := .startingAt line }

/-- A separator as line `number`. -/
def separate (s : State) (number : Nat) : State × Output :=
  if s.mode = .content ∧ s.block.isBlank then (s.startBlock (number + 1), {})
  else (s.startBlock (number + 1), { blocks := [s.block.closeAt (number - 1)] })

/-- A line of text as line `number`. -/
def addContent (s : State) (number : Nat) (text : String) : State × Output :=
  match s.mode with
  | .content => ({ s with block := s.block.appendLine text }, {})
  | .directive =>
    ({ s with mode := .content, block := (Block.startingAt number).appendLine text },
      { blocks := [s.block] })

/-- The open block as a directive on line `number` finds it: the first directive after content
    fixes the last line. -/
def closedBlock (s : State) (number : Nat) : Block :=
  match s.mode with
  | .content => { s.block with lastLine := some (number - 1) }
  | .directive => s.block

/-- A directive as line `number`. -/
def direct (s : State) (rules : Ruleset) (doc : Document) (number : Nat) (body : String) :
    State × Output :=
  let outcome := Command.runText rules doc number body (s.closedBlock number) s.tags
  (⟨.directive, outcome.block, outcome.tags⟩, { findings := outcome.findings })

/-- Feeds line `number` to the machine. -/
def step (s : State) (rules : Ruleset) (doc : Document) (number : Nat) (line : String) :
    State × Output :=
  match Line.classify line with
  | .separator => s.separate number
  | .directive body => s.direct rules doc number body
  | .escaped text | .content text => s.addContent number text

/-- Feeds lines to the machine, the first of them being line `number`. -/
def feed (s : State) (rules : Ruleset) (doc : Document) (number : Nat) :
    List String → State × Output
  | [] => (s, {})
  | line :: rest =>
    let (next, out) := s.step rules doc number line
    let (last, outs) := next.feed rules doc (number + 1) rest
    (last, out ++ outs)

/-- The open block when a document of `count` lines ends. -/
def finish (s : State) (count : Nat) : Block := s.block.closeAt count

end State

/-- The result of segmentation: the blocks of a document, the tags it declares, and the findings. -/
structure Segmented where
  blocks : List Block
  tags : Tags
  findings : Findings

/-- Segments lines of a document, the whole of which is searched for the lines of violations. -/
def segmentLines (rules : Ruleset) (doc : Document) (lines : List String) : Segmented :=
  let (last, out) := State.initial.feed rules doc 1 lines
  ⟨out.blocks ++ [last.finish lines.length], last.tags, out.findings⟩

def segment (rules : Ruleset) (doc : Document) : Segmented := segmentLines rules doc doc.lines

end GuideCheck.Segmentation
