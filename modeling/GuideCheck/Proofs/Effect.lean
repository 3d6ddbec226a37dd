import GuideCheck.Interpretation

set_option autoImplicit false

/-! # The effect of a directive on its block and the tags

What a directive does to the block before it and to the declared tags is settled by its own text:
the rules, the document and the number of the line matter for its findings alone. `Effect` is this
part of a directive. `Command.runText_block` and `Command.runText_tags` say that nothing else
happens, so that a fact about blocks or tags is a fact about four effects.

The range of a block is none of a directive's business, and its text changes only through a payload.
A block that was not rewritten still has the text it had (`Effect.text_onBlock`), and a block
without text never gets any, because no JSON can be read from the empty text
(`Effect.text_onBlock_eq_empty`). -/

namespace GuideCheck

/-- What a directive does to the block before it and to the declared tags. -/
inductive Effect
  /-- leaves both as they are -/
  | nothing
  /-- gives the block an attachment -/
  | attach
  /-- declares a tag for the block -/
  | declare (name : String)
  /-- takes the text of the block as a payload -/
  | read (param : String)
deriving DecidableEq, Repr

namespace Effect

/-- The effect of the text of a directive. -/
def ofBody (body : String) : Effect :=
  match Command.parse body with
  | .error _ => nothing
  | .ok command =>
    match Directive.ofName? command.name with
    | some .attach => attach
    | some .tag => declare command.param
    | some (.payload _) => read command.param
    | _ => nothing

/-- The block after an effect. -/
def onBlock (block : Block) (tags : Tags) : Effect → Block
  | nothing => block
  | attach => { block with attachment := true }
  | declare name => block.declare tags name
  | read param => (Payload.read param block.text).settle block

/-- The declared tags after an effect. -/
def onTags (tags : Tags) : Effect → Tags
  | declare name => tags.insert name
  | _ => tags

end Effect

/-! ## Directives have no other effect -/

theorem Directive.ofName?_eq_tag_iff (name : String) : ofName? name = some .tag ↔ name = "tag" := by
  unfold ofName?
  split <;> simp_all

theorem Command.runText_block (rules : Ruleset) (doc : Document) (line : Nat) (body : String)
    (block : Block) (tags : Tags) :
    (runText rules doc line body block tags).block = (Effect.ofBody body).onBlock block tags := by
  unfold runText Effect.ofBody
  cases parse body with
  | error fault => rfl
  | ok command =>
    simp only [run]
    rcases Directive.ofName? command.name with _ | (_ | _ | _ | _ | _) <;> rfl

theorem Command.runText_tags (rules : Ruleset) (doc : Document) (line : Nat) (body : String)
    (block : Block) (tags : Tags) :
    (runText rules doc line body block tags).tags = (Effect.ofBody body).onTags tags := by
  unfold runText Effect.ofBody
  cases parse body with
  | error fault => rfl
  | ok command =>
    simp only [run]
    rcases Directive.ofName? command.name with _ | (_ | _ | _ | _ | _) <;> rfl

/-! ## What an effect leaves alone -/

/-- A declared tag changes the tag of the block and nothing else. -/
theorem Block.declare_eq (block : Block) (tags : Tags) (name : String) :
    block.declare tags name =
      { block with tag := if tags.contains name then block.tag else some name } := by
  unfold declare
  split <;> rfl

namespace Payload

@[simp] theorem firstLine_settle (block : Block) (payload : Payload) :
    (payload.settle block).firstLine = block.firstLine := by
  cases payload <;> rfl

@[simp] theorem lastLine_settle (block : Block) (payload : Payload) :
    (payload.settle block).lastLine = block.lastLine := by
  cases payload <;> rfl

/-- A payload either leaves the block as it is or marks it as rewritten. -/
theorem settle_eq_or_rewritten (block : Block) (payload : Payload) :
    payload.settle block = block ∨ (payload.settle block).rewritten = true := by
  cases payload with
  | plain => exact Or.inl rfl
  | refused => exact Or.inr rfl
  | malformed error => exact Or.inr rfl
  | parsed value => exact Or.inr rfl

/-- No JSON value is read from the empty text. -/
theorem read_empty_ne_parsed (param : String) (value : Json) :
    Payload.read param "" ≠ .parsed value := by
  -- the reader is run on the empty text
  obtain ⟨error, herror⟩ : ∃ error, Json.parse (Json.mendSurrogates "".toList) = .error error :=
    ⟨_, rfl⟩
  unfold Payload.read
  split
  · rw [herror]
    simp
  · simp
  · simp

end Payload

namespace Effect

@[simp] theorem firstLine_onBlock (block : Block) (tags : Tags) (effect : Effect) :
    (effect.onBlock block tags).firstLine = block.firstLine := by
  cases effect with
  | nothing => rfl
  | attach => rfl
  | declare name => rw [onBlock, Block.declare_eq]
  | read param => exact Payload.firstLine_settle block _

@[simp] theorem lastLine_onBlock (block : Block) (tags : Tags) (effect : Effect) :
    (effect.onBlock block tags).lastLine = block.lastLine := by
  cases effect with
  | nothing => rfl
  | attach => rfl
  | declare name => rw [onBlock, Block.declare_eq]
  | read param => exact Payload.lastLine_settle block _

/-- A block that is not rewritten after an effect was not rewritten before, and has the same
    text. -/
theorem text_onBlock {block : Block} {tags : Tags} {effect : Effect}
    (h : (effect.onBlock block tags).rewritten = false) :
    (effect.onBlock block tags).text = block.text ∧ block.rewritten = false := by
  cases effect with
  | nothing => exact ⟨rfl, h⟩
  | attach => exact ⟨rfl, h⟩
  | declare name =>
    rw [onBlock, Block.declare_eq] at h ⊢
    exact ⟨rfl, h⟩
  | read param =>
    simp only [onBlock] at h ⊢
    rcases Payload.settle_eq_or_rewritten block (Payload.read param block.text) with heq | hre
    · rw [heq] at h ⊢
      exact ⟨rfl, h⟩
    · rw [hre] at h
      exact absurd h (by simp)

/-- A block without text has none after an effect either. -/
theorem text_onBlock_eq_empty {block : Block} (tags : Tags) (effect : Effect)
    (h : block.text = "") : (effect.onBlock block tags).text = "" := by
  cases effect with
  | nothing => exact h
  | attach => exact h
  | declare name =>
    rw [onBlock, Block.declare_eq]
    exact h
  | read param =>
    simp only [onBlock, h]
    cases hread : Payload.read param "" with
    | plain => exact h
    | refused => rfl
    | malformed error => rfl
    | parsed value => exact absurd hread (Payload.read_empty_ne_parsed param value)

end Effect

end GuideCheck
