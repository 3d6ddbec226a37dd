import GuideCheck.Browser
import Mathlib.Data.Int.ModEq
import Mathlib.Data.List.Count
import GuideCheck.Proofs.Paths

set_option autoImplicit false

/-! # Moving through the guides

A browser moves to the next guide and to the previous one, and goes on at the other end where there
is none. However often it moves, the selected guide is the one that the moves count up to, around
the list, and the lines are those of that guide (`Browser.run_onFolder`). -/

namespace GuideCheck.Browser

open Files

/-! ## Moves -/

inductive Move
  | next
  | previous
deriving DecidableEq, Repr

/-- How far a move goes down the list. -/
def Move.distance : Move → Int
  | next => 1
  | previous => -1

def Move.opposite : Move → Move
  | next => previous
  | previous => next

def move (b : Browser) : Move → Browser
  | .next => b.next
  | .previous => b.previous

/-- The browser after some moves. -/
def run (b : Browser) (moves : List Move) : Browser := moves.foldl move b

theorem Move.sum_distance (moves : List Move) :
    (moves.map distance).sum = (moves.count .next : Int) - moves.count .previous := by
  induction moves with
  | nil => rfl
  | cons first rest ih =>
    rw [List.map_cons, List.sum_cons, ih]
    cases first with
    | next =>
      rw [List.count_cons_self, List.count_cons_of_ne (by decide), distance]
      omega
    | previous =>
      rw [List.count_cons_self, List.count_cons_of_ne (by decide), distance]
      omega

theorem Move.distance_opposite (m : Move) : m.opposite.distance = -m.distance := by
  cases m <;> rfl

/-! ## Without guides -/

theorem move_of_guides_eq_nil {b : Browser} (h : b.guides = []) (m : Move) : b.move m = b := by
  cases m with
  | next => rw [move, next, if_pos (List.isEmpty_iff.2 h)]
  | previous => rw [move, previous, if_pos (List.isEmpty_iff.2 h)]

theorem run_of_guides_eq_nil {b : Browser} (h : b.guides = []) (moves : List Move) :
    b.run moves = b := by
  induction moves with
  | nil => rfl
  | cons m rest ih =>
    show (b.move m).run rest = b
    rw [move_of_guides_eq_nil h, ih]

/-! ## With guides -/

/-- The guide at an index is selected, and the lines are those of this guide. -/
structure Shows (b : Browser) (index : Nat) : Prop where
  selected : b.selected = some index
  content : ∃ guide, b.guides[index]? = some guide ∧ b.content = b.linesFor guide

section

variable {b : Browser} {index : Nat}

theorem shows_select (h : index < b.guides.length) : (b.select index).Shows index := by
  have hguide : b.guides[index]? = some b.guides[index] := List.getElem?_eq_getElem h
  refine ⟨rfl, b.guides[index], hguide, ?_⟩
  rw [select, hguide]
  rfl

/-- What was selected before leaves no trace. -/
theorem select_select (h : index < b.guides.length) (before : Nat) :
    (b.select before).select index = b.select index := by
  have hguide : b.guides[index]? = some b.guides[index] := List.getElem?_eq_getElem h
  simp only [select, hguide]
  rfl

theorem Shows.lt (h : b.Shows index) : index < b.guides.length := by
  obtain ⟨guide, hguide, -⟩ := h.content
  exact (List.getElem?_eq_some_iff.1 hguide).1

theorem Shows.ne_nil (h : b.Shows index) : b.guides ≠ [] :=
  List.ne_nil_of_length_pos (Nat.zero_lt_of_lt h.lt)

theorem Shows.select_eq (h : b.Shows index) : b.select index = b := by
  obtain ⟨guide, hguide, hcontent⟩ := h.content
  simp only [select, hguide, ← hcontent, ← h.selected]

/-- The index that a distance from an index leads to, around a list of a length. -/
def around (length : Nat) (index : Nat) (distance : Int) : Nat :=
  ((index + distance) % length).toNat

theorem around_lt {length : Nat} (h : 0 < length) (index : Nat) (distance : Int) :
    around length index distance < length := by
  have hlength : (0 : Int) < length := by exact_mod_cast h
  have hnonneg := Int.emod_nonneg (index + distance) hlength.ne'
  have hlt := Int.emod_lt_of_pos (index + distance) hlength
  rw [around]
  omega

theorem around_around {length : Nat} (h : 0 < length) (index : Nat) (first second : Int) :
    around length (around length index first) second = around length index (first + second) := by
  have hlength : (length : Int) ≠ 0 := by exact_mod_cast h.ne'
  rw [around, around, Int.toNat_of_nonneg (Int.emod_nonneg _ hlength), Int.emod_add_emod,
    add_assoc, around]

theorem around_zero {length : Nat} (h : index < length) : around length index 0 = index := by
  rw [around, add_zero, Int.emod_eq_of_lt (by omega) (by omega), Int.toNat_natCast]

/-- One move selects the guide beside the one that is shown. -/
theorem Shows.move_eq (h : b.Shows index) (m : Move) :
    b.move m = b.select (around b.guides.length index m.distance) := by
  have hlt := h.lt
  have hne : ¬ b.guides.isEmpty = true := by simpa using h.ne_nil
  cases m with
  | next =>
    rw [move, next, if_neg hne, h.selected]
    show b.select ((index + 1) % b.guides.length) = _
    rw [around, Move.distance, ← Int.natCast_one, ← Int.natCast_add, ← Int.natCast_emod,
      Int.toNat_natCast]
  | previous =>
    rw [move, previous, if_neg hne, h.selected]
    cases index with
    | zero =>
      show b.select (b.guides.length - 1) = _
      have hlast : ((0 : Nat) + (-1) : Int) % b.guides.length = (b.guides.length - 1 : Nat) := by
        rw [← Int.add_emod_right, Int.emod_eq_of_lt (by omega) (by omega)]
        omega
      rw [around, Move.distance, hlast, Int.toNat_natCast]
    | succ index =>
      show b.select index = _
      have hbefore : ((index + 1 : Nat) + (-1) : Int) % b.guides.length = index := by
        rw [Int.emod_eq_of_lt (by omega) (by omega)]
        omega
      rw [around, Move.distance, hbefore, Int.toNat_natCast]

theorem Shows.move (h : b.Shows index) (m : Move) :
    (b.move m).Shows (around b.guides.length index m.distance) := by
  rw [h.move_eq]
  exact shows_select (around_lt (Nat.zero_lt_of_lt h.lt) _ _)

/-- All moves together select the guide at the distance that they add up to. -/
theorem Shows.run_eq (h : b.Shows index) (moves : List Move) :
    b.run moves = b.select (around b.guides.length index (moves.map Move.distance).sum) := by
  induction moves generalizing b index with
  | nil =>
    rw [List.map_nil, List.sum_nil, around_zero h.lt, h.select_eq]
    rfl
  | cons m rest ih =>
    have hpos := Nat.zero_lt_of_lt h.lt
    have hguides : (b.move m).guides = b.guides := by
      rw [h.move_eq]
      rfl
    show (b.move m).run rest = _
    rw [ih (h.move m), hguides, around_around hpos, h.move_eq, select_select (around_lt hpos _ _)]
    rfl

theorem Shows.run (h : b.Shows index) (moves : List Move) :
    (b.run moves).Shows (around b.guides.length index (moves.map Move.distance).sum) := by
  rw [h.run_eq]
  exact shows_select (around_lt (Nat.zero_lt_of_lt h.lt) _ _)

/-- The opposite move leads back. -/
theorem Shows.move_opposite (h : b.Shows index) (m : Move) :
    (b.move m).move m.opposite = b := by
  have hback := h.run_eq [m, m.opposite]
  rw [List.map_cons, List.map_cons, List.map_nil, List.sum_cons, List.sum_cons, List.sum_nil,
    Move.distance_opposite, add_zero, add_neg_cancel, around_zero h.lt, h.select_eq] at hback
  exact hback

end

/-! ## A browser on a folder -/

/-- **The selection and the lines keep in step.** -/
theorem run_onFolder {tree : Tree} {folder : Path} {entries : List (Name × Entry)}
    (found : tree.find? folder = some (.folder entries)) (rules : Ruleset) :
    ∃ guides opened, tree.listGuides folder = .ok guides ∧
      onFolder tree folder rules = .ok opened ∧
      ∀ moves : List Move,
        let b := opened.run moves
        let index :=
          (((moves.count .next : Int) - moves.count .previous) % guides.length).toNat
        (guides = [] → b.selected = none ∧ b.content = []) ∧
        (guides ≠ [] → b.selected = some index ∧ ∃ guide, guides[index]? = some guide ∧
          b.content =
            match tree.readGuide folder guide.relativePath with
            | .ok text => (analyze rules text).preview
            | .error fault => [oneLine s!"Error reading file: {fault.message}"]) ∧
        b.next.previous = b ∧ b.previous.next = b := by
  obtain ⟨guides, hguides⟩ : ∃ guides, tree.listGuides folder = .ok guides := by
    rw [Tree.listGuides, Tree.guideParts, found]
    exact ⟨_, rfl⟩
  by_cases hempty : guides = []
  · subst hempty
    have hopened : onFolder tree folder rules = .ok { tree, folder, rules, guides := [] } := by
      rw [onFolder, hguides]
      rfl
    refine ⟨[], _, hguides, hopened, fun moves => ?_⟩
    rw [run_of_guides_eq_nil rfl]
    exact ⟨fun _ => ⟨rfl, rfl⟩, fun hne => absurd rfl hne, rfl, rfl⟩
  · let start : Browser := { tree, folder, rules, guides }
    have hpos : 0 < start.guides.length := List.length_pos_iff.2 hempty
    have hopened : onFolder tree folder rules = .ok (start.select 0) := by
      rw [onFolder, hguides]
      show Except.ok (if guides.isEmpty then start else start.select 0) = _
      rw [if_neg (by simpa using hempty)]
    refine ⟨guides, start.select 0, hguides, hopened, fun moves => ?_⟩
    have hstart := shows_select hpos
    have hrun := hstart.run moves
    refine ⟨fun hnil => absurd hnil hempty, fun _ => ?_, hrun.move_opposite .next,
      hrun.move_opposite .previous⟩
    rw [Move.sum_distance, around, Int.natCast_zero, zero_add, hstart.run_eq moves] at hrun
    rw [hstart.run_eq moves]
    exact ⟨hrun.selected, hrun.content⟩

/-- Back from the first of two guides, the browser shows that the last one is no text. -/
theorem run_onFolder_back :
    let entries : List (Name × Entry) :=
      [(bytes "bandos.txt", .file "Bring food".toUTF8), (bytes "wings.txt", .file ⟨#[255]⟩)]
    let tree : Tree := ⟨.folder [(bytes "guides", .folder entries)], []⟩
    tree.find? (bytes "guides") = some (.folder entries) ∧
      ∃ opened, onFolder tree (bytes "guides") (.standard {}) = .ok opened ∧
        (opened.run [.previous]).selected = some 1 ∧
        (opened.run [.previous]).content =
          ["Error reading file: IO error: stream did not contain valid UTF-8"] := by
  intro entries tree
  have found : tree.find? (bytes "guides") = some (.folder entries) := rfl
  obtain ⟨guides, opened, hlist, hopened, hrun⟩ := run_onFolder found (.standard {})
  have hguides : guides = [⟨"bandos.txt"⟩, ⟨"wings.txt"⟩] := by
    have hscan : guidesBelow entries = [[bytes "bandos.txt"], [bytes "wings.txt"]] := by
      have hfirst : isGuideName (bytes "bandos.txt") = true := by decide
      have hsecond : isGuideName (bytes "wings.txt") = true := by decide
      simp only [entries, guidesBelow, if_pos hfirst, if_pos hsecond]
    rw [Tree.listGuides, Tree.guideParts, found] at hlist
    simp only [hscan] at hlist
    rw [sortPaths, List.mergeSort_of_pairwise (by decide)] at hlist
    have hfirst : text? (ofParts [bytes "bandos.txt"]) = some "bandos.txt" := text?_bytes _
    have hsecond : text? (ofParts [bytes "wings.txt"]) = some "wings.txt" := text?_bytes _
    have hnames := (Except.ok.inj hlist).symm
    simpa only [List.filterMap_cons, List.filterMap_nil, hfirst, hsecond, Option.map_some]
      using hnames
  subst hguides
  obtain ⟨-, hsome, -⟩ := hrun [.previous]
  obtain ⟨hselected, guide, hguide, hcontent⟩ := hsome (by decide)
  obtain rfl := Option.some.inj hguide
  exact ⟨found, opened, hopened, hselected, hcontent⟩

end GuideCheck.Browser
