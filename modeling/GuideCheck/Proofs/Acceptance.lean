import GuideCheck.Component.Check
import GuideCheck.Proofs.Meaning
import Mathlib.Data.List.Basic
import Mathlib.Tactic.MkIffOfInductiveProp

set_option autoImplicit false

/-! # Which component trees are accepted

`Component.Acceptable` says what the platform asks for, rule by rule and without the check: the code
of the payload, its array of components, the size of the tree they make, the numbers of action rows,
children and options, and the types. `Component.Degraded` says what is sent but shows badly. The
check reports an error exactly if a payload is not acceptable, and a warning exactly if one of its
components is degraded (`Component.check_reports`).

Codes are compared as numbers, so that a code may be written as a whole double. The size of a tree
is the number of its components, with those inside others, and one more for each accessory
(`Json.componentCounts_eq_treeSize`). -/

namespace GuideCheck

/-! ## Codes -/

/-- Whether a number is this natural number. -/
def Number.Is (code : Nat) : Number → Prop
  | int value => value = code
  | double x => x.value = code * Double.one

/-- Whether a component has this number as its type. -/
def Json.HasCode (component : Json) (code : Nat) : Prop :=
  ∃ n, component.get? "type" = some (.num n) ∧ n.Is code

theorem Double.one_pos : 0 < Double.one := by decide

/-- A double without fraction that is not below zero is the natural number below it. -/
theorem Double.value_eq_iff (x : Double) (code : Nat) :
    x.value = code * Double.one ↔ (x.isWhole = true ∧ 0 ≤ x.value) ∧ x.floorAbs = code := by
  have hone := one_pos
  simp only [isWhole, floorAbs, beq_iff_eq]
  generalize Double.one = one at hone
  have habs : x.value = x.units ∨ x.value = -(x.units : Int) := by
    unfold value
    split <;> simp
  constructor
  · intro h
    have hpos : 0 ≤ x.value := h ▸ Int.natCast_nonneg (code * one)
    have hvalue : x.value = x.units := by omega
    have hunits : x.units = code * one := by exact_mod_cast hvalue.symm.trans h
    simp [hunits, hpos, Nat.mul_div_cancel code hone]
  · rintro ⟨⟨hwhole, hpos⟩, hfloor⟩
    have hunits : x.units = code * one :=
      hfloor ▸ (Nat.div_mul_cancel (Nat.dvd_of_mod_eq_zero hwhole)).symm
    have hvalue : x.value = x.units := by omega
    exact_mod_cast hvalue.trans (congrArg Nat.cast hunits)

theorem Number.code?_eq_some_iff (n : Number) (code : Nat) : n.code? = some code ↔ n.Is code := by
  cases n with
  | int value =>
    simp only [code?, Option.ite_none_right_eq_some, Option.some.injEq, Is]
    omega
  | double x =>
    simp only [code?, Option.ite_none_right_eq_some, Option.some.injEq, Is]
    exact (Double.value_eq_iff x code).symm

theorem ComponentKind.ofCode?_code (kind : ComponentKind) : ofCode? kind.code = some kind := by
  cases kind <;> rfl

theorem ComponentKind.ofCode?_eq_some_iff (code : Nat) (kind : ComponentKind) :
    ofCode? code = some kind ↔ code = kind.code := by
  constructor
  · intro h
    have hcode : kind.code = code := by simpa using List.find?_some h
    exact hcode.symm
  · rintro rfl
    exact ofCode?_code kind

namespace Json

theorem hasCode_iff_code? (component : Json) (code : Nat) :
    component.HasCode code ↔
      ((component.get? "type").bind number?).bind Number.code? = some code := by
  simp only [HasCode, Option.bind_eq_some_iff, ← Number.code?_eq_some_iff]
  constructor
  · rintro ⟨n, htype, hcode⟩
    exact ⟨n, ⟨_, htype, rfl⟩, hcode⟩
  · rintro ⟨n, ⟨value, htype, hnumber⟩, hcode⟩
    cases value <;> cases hnumber
    exact ⟨n, htype, hcode⟩

instance (component : Json) (code : Nat) : Decidable (component.HasCode code) :=
  decidable_of_iff' _ (hasCode_iff_code? component code)

/-- The kind of a component is settled by its code. -/
theorem kind?_eq_some_iff (component : Json) (kind : ComponentKind) :
    component.kind? = some kind ↔ component.HasCode kind.code := by
  rw [hasCode_iff_code?, kind?, Option.bind_eq_some_iff]
  simp [ComponentKind.ofCode?_eq_some_iff]

/-! ## Sizes -/

/-- The components inside a component are smaller than it. -/
theorem sizeOf_lt_of_mem_children {component child : Json}
    (h : child ∈ component.children?.getD []) : sizeOf child < sizeOf component := by
  cases component with
  | obj members =>
    obtain ⟨children, hchildren, hmem⟩ : ∃ children, (obj members).children? = some children ∧
        child ∈ children := by
      cases hchildren : (obj members).children? <;> simp_all
    obtain ⟨value, hvalue, hitems⟩ := Option.bind_eq_some_iff.1 hchildren
    obtain ⟨before, after, hsplit, -⟩ := List.lookup_eq_some_iff.1 hvalue
    have hfound : ("components", value) ∈ members := by simp [hsplit]
    have hmember := Schema.sizeOf_lt_of_mem hfound
    cases value <;> cases hitems
    have hchild := List.sizeOf_lt_of_mem hmem
    simp only [arr.sizeOf_spec] at hmember
    omega
  | _ => simp [children?, get?] at h

/-- A component and those inside it, the outer ones first. -/
def withNested (component : Json) : List Json :=
  component :: (component.children?.getD []).attach.flatMap fun ⟨child, _⟩ => child.withNested
termination_by component
decreasing_by exact sizeOf_lt_of_mem_children ‹_›

/-- The components in a list of trees, and one for each accessory among them. -/
def treeSize (components : List Json) : Nat :=
  (components.flatMap withNested).length + (components.flatMap withNested).countP hasAccessory

theorem withNested_eq (component : Json) :
    component.withNested = component :: (component.children?.getD []).flatMap withNested := by
  rw [withNested]
  simp

theorem treeSize_cons (component : Json) (rest : List Json) :
    treeSize (component :: rest) = treeSize [component] + treeSize rest := by
  simp [treeSize]
  omega

theorem treeSize_singleton (component : Json) :
    treeSize [component] =
      1 + treeSize (component.children?.getD []) + if component.hasAccessory then 1 else 0 := by
  simp [treeSize, withNested_eq component, List.countP_cons]
  omega

theorem nestedCount_eq (members : List (String × Json)) :
    nestedCount members = componentCounts ((obj members).children?.getD []) := by
  have harray (value : Json) : arrayCount value = componentCounts (value.items?.getD []) := by
    cases value <;> rfl
  induction members with
  | nil => rfl
  | cons member rest ih =>
    obtain ⟨key, value⟩ := member
    simp only [nestedCount, children?, get?, List.lookup_cons] at ih ⊢
    cases hkey : "components" == key <;> simp [harray, ih]

theorem componentCount_eq (component : Json) :
    component.componentCount =
      1 + componentCounts (component.children?.getD []) +
        if component.hasAccessory then 1 else 0 := by
  cases component with
  | obj members => rw [componentCount, nestedCount_eq]
  | _ => simp [componentCount, children?, get?, componentCounts, hasAccessory]

/-- The count of a list of trees, as far as it is right for each of them. -/
theorem componentCounts_eq_of_forall (components : List Json)
    (h : ∀ component ∈ components, component.componentCount = treeSize [component]) :
    componentCounts components = treeSize components := by
  induction components with
  | nil => rfl
  | cons component rest ih =>
    rw [componentCounts, treeSize_cons, h component List.mem_cons_self,
      ih fun other hother => h other (List.mem_cons_of_mem _ hother)]

theorem componentCount_eq_treeSize (component : Json) :
    component.componentCount = treeSize [component] := by
  rw [componentCount_eq, treeSize_singleton,
    componentCounts_eq_of_forall _ fun child _ => componentCount_eq_treeSize child]
termination_by component
decreasing_by exact sizeOf_lt_of_mem_children ‹_›

/-- The count adds up what there is in the trees. -/
theorem componentCounts_eq_treeSize (components : List Json) :
    componentCounts components = treeSize components :=
  componentCounts_eq_of_forall components fun component _ => componentCount_eq_treeSize component

end Json

namespace Component

/-! ## The rules -/

/-- Whether a select menu has too many options. -/
def IsOverlong (limits : Limits) (component : Json) : Prop :=
  component.HasCode 3 ∧ ∃ options, component.get? "options" = some (.arr options) ∧
    limits.selectOptions < options.length

/-- What is asked of the children of an action row. -/
@[mk_iff]
structure RowFits (limits : Limits) (children : List Json) : Prop where
  length : children.length ≤ limits.actionRowChildren
  options : ∀ child ∈ children, ¬ IsOverlong limits child

/-- What is asked of the components of a payload. -/
@[mk_iff]
structure Fits (limits : Limits) (components : List Json) : Prop where
  size : Json.treeSize components ≤ limits.componentsPerMessage
  rows : components.countP (·.HasCode 1) ≤ limits.actionRows
  row : ∀ component ∈ components, component.HasCode 1 →
    RowFits limits (component.children?.getD [])
  sectionLength : ∀ component ∈ components, component.HasCode 9 →
    (component.children?.getD []).length ≤ limits.sectionChildren
  type : ∀ component ∈ components, Json.truthy (component.get? "type") = true

/-- What is asked of a payload. -/
@[mk_iff]
structure Acceptable (limits : Limits) (payload : Json) : Prop where
  root : payload.HasCode 17
  components : ∃ components, payload.children? = some components ∧ Fits limits components

/-- What makes a component at the top level show badly. -/
@[mk_iff]
inductive Degraded (limits : Limits) (component : Json) : Prop
  /-- a section with an empty text -/
  | sectionText (child : Json) (hcode : component.HasCode 9)
      (hmem : child ∈ component.children?.getD []) (htext : child.HasCode 10)
      (hblank : Json.blank (child.get? "content") = true)
  /-- an empty text -/
  | text (hcode : component.HasCode 10) (hblank : Json.blank (component.get? "content") = true)
  /-- a gallery without an array of items, or with an empty one -/
  | emptyGallery (hcode : component.HasCode 12)
      (hnone : ∀ item rest, component.get? "items" ≠ some (.arr (item :: rest)))
  /-- a gallery with an item that shows nothing -/
  | missingMedia (items : List Json) (item : Json) (hcode : component.HasCode 12)
      (hitems : component.get? "items" = some (.arr items)) (hmem : item ∈ items)
      (hurl : Json.truthy ((item.get? "media").bind (Json.get? "url")) = false)
  /-- a spacer without spacing -/
  | noSpacing (hcode : component.HasCode 14)
      (hspacing : Json.truthy (component.get? "spacing") = false)
  /-- a spacer with a number out of bounds for its spacing -/
  | spacing (n : Number) (hcode : component.HasCode 14)
      (hspacing : component.get? "spacing" = some (.num n))
      (hbounds : ¬ (Double.ofInt limits.spacingMin ≤ n.toDouble ∧
        n.toDouble ≤ Double.ofInt limits.spacingMax))

/-! ## Reports -/

/-- Whether there is a problem of a severity. -/
def Reports (severity : Severity) (problems : List Problem) : Prop :=
  ∃ problem ∈ problems, problem.severity = severity

section Reports

variable {α : Type} (severity : Severity)

@[simp] theorem reports_nil : ¬ Reports severity [] := by simp [Reports]

@[simp] theorem reports_singleton (problem : Problem) :
    Reports severity [problem] ↔ severity = problem.severity := by simp [Reports, eq_comm]

@[simp] theorem reports_append (a b : List Problem) :
    Reports severity (a ++ b) ↔ Reports severity a ∨ Reports severity b := by
  simp only [Reports, List.mem_append, or_and_right, exists_or]

@[simp] theorem reports_problemIf (condition : Bool) (problem : Problem) :
    Reports severity (problemIf condition problem) ↔
      severity = problem.severity ∧ condition = true := by
  cases condition <;> simp [problemIf]

theorem reports_flatMap (items : List α) (problems : α → List Problem) :
    Reports severity (items.flatMap problems) ↔
      ∃ item ∈ items, Reports severity (problems item) := by
  simp only [Reports, List.mem_flatMap]
  constructor
  · rintro ⟨problem, ⟨item, hitem, hmem⟩, hseverity⟩
    exact ⟨item, hitem, problem, hmem, hseverity⟩
  · rintro ⟨item, hitem, problem, hmem, hseverity⟩
    exact ⟨problem, ⟨item, hitem, hmem⟩, hseverity⟩

/-- What is reported item by item does not depend on the positions of the items. -/
theorem reports_flatMap_zipIdx (items : List α) (problems : α × Nat → List Problem)
    (Bad : α → Prop) (h : ∀ item index, Reports severity (problems (item, index)) ↔ Bad item) :
    Reports severity (items.zipIdx.flatMap problems) ↔ ∃ item ∈ items, Bad item := by
  rw [reports_flatMap]
  constructor
  · rintro ⟨⟨item, index⟩, hmem, hbad⟩
    exact ⟨item, List.fst_mem_of_mem_zipIdx hmem, (h item index).1 hbad⟩
  · rintro ⟨item, hmem, hbad⟩
    obtain ⟨index, hindex⟩ := List.mem_iff_getElem?.1 hmem
    exact ⟨(item, index), List.mem_zipIdx_iff_getElem?.2 hindex, (h item index).2 hbad⟩

end Reports

/-! ## Limits on children -/

variable (severity : Severity) (limits : Limits) (position : Nat)

theorem reports_optionProblems (children : List Json) :
    Reports severity (optionProblems limits position children) ↔
      severity = .error ∧ ∃ child ∈ children, IsOverlong limits child := by
  have hselect (child : Json) : child.kind? = some .stringSelect ↔ child.HasCode 3 :=
    child.kind?_eq_some_iff .stringSelect
  simp only [optionProblems, reports_flatMap, ← exists_and_left]
  refine exists_congr fun child => ?_
  rw [and_left_comm]
  refine and_congr_right fun _ => ?_
  rw [IsOverlong]
  cases child.get? "options" with
  | none => simp
  | some value => cases value <;> simp [Json.items?, Problem.severity, hselect]

theorem reports_rowProblems (children : List Json) :
    Reports severity (rowProblems limits position children) ↔
      severity = .error ∧ ¬ RowFits limits children := by
  simp only [rowProblems, reports_append, reports_problemIf, reports_optionProblems,
    decide_eq_true_eq, rowFits_iff, not_and_or, Nat.not_le, not_forall, not_not, exists_prop]
  exact and_or_left.symm

theorem reports_sectionProblems (children : List Json) :
    Reports severity (sectionProblems limits position children) ↔
      severity = .error ∧ limits.sectionChildren < children.length := by
  simp [sectionProblems, Problem.severity]

/-- Containers are at fault if a row is one too many or if one of them has the wrong children. -/
theorem reports_containerProblems (rows : Nat) (components : List Json) :
    Reports severity (containerProblems limits rows position components) ↔
      severity = .error ∧
        ((0 < components.countP (·.HasCode 1) ∧
            limits.actionRows < rows + components.countP (·.HasCode 1)) ∨
          (∃ c ∈ components, c.HasCode 1 ∧ ¬ RowFits limits (c.children?.getD [])) ∨
          ∃ c ∈ components, c.HasCode 9 ∧
            limits.sectionChildren < (c.children?.getD []).length) := by
  have hrow (c : Json) : c.HasCode 1 ↔ c.kind? = some .actionRow :=
    (c.kind?_eq_some_iff .actionRow).symm
  have hsection (c : Json) : c.HasCode 9 ↔ c.kind? = some .textSection :=
    (c.kind?_eq_some_iff .textSection).symm
  induction components generalizing rows position with
  | nil => simp [containerProblems]
  | cons component rest ih =>
    simp only [containerProblems, List.countP_cons, List.exists_mem_cons_iff, decide_eq_true_eq]
    split
    case h_1 hkind =>
      have hone : component.HasCode 1 := (hrow component).2 hkind
      have hnine : ¬ component.HasCode 9 := by simp [hsection, hkind]
      -- either this row is already one too many, or there is another one that is
      have hcount (n : Nat) : 0 < n + 1 ∧ limits.actionRows < rows + (n + 1) ↔
          limits.actionRows < rows + 1 ∨ (0 < n ∧ limits.actionRows < rows + 1 + n) := by omega
      simp only [reports_append, reports_problemIf, reports_rowProblems, ih, hone, hnine, if_true,
        true_and, false_and, false_or, decide_eq_true_eq, Problem.severity, hcount, ← and_or_left]
      simp only [or_assoc, or_left_comm]
    case h_2 hkind =>
      have hone : ¬ component.HasCode 1 := by simp [hrow, hkind]
      have hnine : component.HasCode 9 := (hsection component).2 hkind
      simp only [reports_append, reports_sectionProblems, ih, hone, hnine, if_false, Nat.add_zero,
        true_and, false_and, false_or, ← and_or_left]
      simp only [or_left_comm]
    case h_3 hother hother' =>
      have hone : ¬ component.HasCode 1 := fun h => hother ((hrow component).1 h)
      have hnine : ¬ component.HasCode 9 := fun h => hother' ((hsection component).1 h)
      simp only [ih, hone, hnine, if_false, Nat.add_zero, false_and, false_or]

/-! ## Requirements of single components -/

theorem reports_sectionTextProblems (children : List Json) :
    Reports severity (sectionTextProblems position children) ↔
      severity = .warning ∧ ∃ child ∈ children, child.HasCode 10 ∧
        Json.blank (child.get? "content") = true := by
  have htext (child : Json) : child.kind? = some .textDisplay ↔ child.HasCode 10 :=
    child.kind?_eq_some_iff .textDisplay
  rw [sectionTextProblems, reports_flatMap_zipIdx severity children _
    fun child => severity = .warning ∧ child.HasCode 10 ∧ Json.blank (child.get? "content") = true]
  · simp only [and_left_comm (b := severity = _), exists_and_left]
  · simp [Problem.severity, htext]

theorem reports_galleryProblems (items : List Json) :
    Reports severity (galleryProblems position items) ↔
      severity = .warning ∧ (items = [] ∨ ∃ item ∈ items,
        Json.truthy ((item.get? "media").bind (Json.get? "url")) = false) := by
  unfold galleryProblems
  split
  · simp_all [Problem.severity]
  · rw [reports_flatMap_zipIdx severity items _ fun item => severity = .warning ∧
      Json.truthy ((item.get? "media").bind (Json.get? "url")) = false]
    · simp_all only [and_left_comm (b := severity = _), exists_and_left]
      simp_all
    · simp [Problem.severity]

theorem badSpacing_iff (spacing : Option Json) :
    badSpacing limits spacing = true ↔
      Json.truthy spacing = false ∨ ∃ n, spacing = some (.num n) ∧
        ¬ (Double.ofInt limits.spacingMin ≤ n.toDouble ∧
          n.toDouble ≤ Double.ofInt limits.spacingMax) := by
  have hbounds (x low high : Double) : x < low ∨ high < x ↔ ¬ (low ≤ x ∧ x ≤ high) := by
    rw [not_and_or]
    exact or_congr Int.not_le.symm Int.not_le.symm
  rw [badSpacing, Bool.or_eq_true, Bool.not_eq_true']
  refine or_congr_right ?_
  match spacing with
  | some (.num n) => simp [Json.number?, ← hbounds]
  | none | some .null | some (.bool _) | some (.str _) | some (.arr _) | some (.obj _) =>
    simp [Json.number?]

theorem reports_kindProblems (component : Json) :
    Reports severity (kindProblems limits position component) ↔
      severity = .warning ∧ Degraded limits component := by
  have hsection : component.HasCode 9 ↔ component.kind? = some .textSection :=
    (component.kind?_eq_some_iff .textSection).symm
  have htext : component.HasCode 10 ↔ component.kind? = some .textDisplay :=
    (component.kind?_eq_some_iff .textDisplay).symm
  have hgallery : component.HasCode 12 ↔ component.kind? = some .mediaGallery :=
    (component.kind?_eq_some_iff .mediaGallery).symm
  have hspacer : component.HasCode 14 ↔ component.kind? = some .spacer :=
    (component.kind?_eq_some_iff .spacer).symm
  rw [degraded_iff, hsection, htext, hgallery, hspacer, kindProblems]
  cases hkind : component.kind? with
  | none => simp
  | some kind =>
    cases kind with
    | textSection => simp [reports_sectionTextProblems]
    | textDisplay => simp [Problem.severity]
    | mediaGallery =>
      simp only [reports_galleryProblems]
      cases component.get? "items" with
      | none => simp
      | some value =>
        cases value with
        | arr items => cases items <;> simp [Json.items?]
        | _ => simp [Json.items?]
    | spacer => simp [badSpacing_iff, Problem.severity]
    | actionRow | button | stringSelect | thumbnail | file | container => simp

theorem reports_componentProblems (component : Json) :
    Reports severity (componentProblems limits position component) ↔
      (severity = .error ∧ Json.truthy (component.get? "type") = false) ∨
        (severity = .warning ∧ Degraded limits component) := by
  simp [componentProblems, reports_kindProblems, Problem.severity]

/-! ## The payload -/

/-- What makes the components of a payload unfit, in the order in which it is looked for. -/
theorem not_fits_iff (components : List Json) :
    ¬ Fits limits components ↔
      limits.componentsPerMessage < Json.treeSize components ∨
        ((0 < components.countP (·.HasCode 1) ∧
            limits.actionRows < 0 + components.countP (·.HasCode 1)) ∨
          (∃ c ∈ components, c.HasCode 1 ∧ ¬ RowFits limits (c.children?.getD [])) ∨
          ∃ c ∈ components, c.HasCode 9 ∧
            limits.sectionChildren < (c.children?.getD []).length) ∨
        ∃ c ∈ components, Json.truthy (c.get? "type") = false := by
  have hrows : (0 < components.countP (·.HasCode 1) ∧
      limits.actionRows < 0 + components.countP (·.HasCode 1)) ↔
        limits.actionRows < components.countP (·.HasCode 1) := by omega
  simp only [fits_iff, not_and_or, not_forall, exists_prop, Nat.not_le, Bool.not_eq_true, hrows,
    or_assoc]

theorem reports_treeProblems (components : List Json) :
    Reports severity (treeProblems limits components) ↔
      (severity = .error ∧ ¬ Fits limits components) ∨
        (severity = .warning ∧ ∃ c ∈ components, Degraded limits c) := by
  rw [not_fits_iff]
  simp only [treeProblems, reports_append, reports_problemIf, reports_containerProblems,
    Json.componentCounts_eq_treeSize, decide_eq_true_eq]
  rw [reports_flatMap_zipIdx severity components _ _ fun component index =>
    reports_componentProblems severity limits (index + 1) component]
  cases severity <;> simp [Problem.severity, or_assoc]

/-- The check finds an error exactly in the payloads that are not acceptable, and a warning exactly
    in those with a component that shows badly. -/
theorem check_reports (limits : Limits) (payload : Json) :
    (Reports .error (check limits payload) ↔ ¬ Acceptable limits payload) ∧
      (Reports .warning (check limits payload) ↔
        ∃ components, payload.children? = some components ∧
          ∃ component ∈ components, Degraded limits component) := by
  have hroot : payload.kind? = some .container ↔ payload.HasCode 17 :=
    payload.kind?_eq_some_iff .container
  simp only [check, reports_append, reports_problemIf, acceptable_iff]
  cases payload.children? with
  | none => simp [Problem.severity]
  | some components => simp [reports_treeProblems, Problem.severity, hroot, imp_iff_not_or]

end Component

end GuideCheck
