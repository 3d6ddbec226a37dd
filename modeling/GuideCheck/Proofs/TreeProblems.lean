import GuideCheck.Proofs.Acceptance
import Mathlib.Data.List.Basic

set_option autoImplicit false

/-! # The problems of a component tree one by one

The check of a tree first goes through the components for the numbers of rows and children, with a
counter of the action rows so far, and then once more for what each component lacks. The counter is
the number of rows up to a component (`Component.containerProblems_eq`), so the first part is a list
of reports, one for each component, that do not depend on each other. The errors about too many rows
number the rows past the limit, without a gap (`Component.check_rows`).

A missing type is looked for in the components at the top level only. Each of them that has none is
reported with its position (`Component.check_missingType`), and what is inside them may have types
or not (`Component.not_reports_missingType`). -/

namespace GuideCheck

/-- The number of options in the array of a component, none if there is no array. -/
def Json.optionCount (component : Json) : Nat :=
  (((component.get? "options").bind items?).getD []).length

namespace Component

/-! ## Kinds of problems -/

namespace Problem

/-- Whether there is an action row too many. -/
def isTooManyRows : Problem → Bool
  | tooManyRows .. => true
  | _ => false

/-- Whether the problem is in the number of rows, children or options. -/
def isOfContainers : Problem → Bool
  | tooManyRows .. | tooManyRowChildren .. | tooManyOptions .. | tooManySectionChildren .. => true
  | _ => false

/-- Whether a component lacks its type. -/
def isMissingType : Problem → Bool
  | missingType _ => true
  | _ => false

theorem severity_of_isOfContainers (p : Problem) (h : p.isOfContainers = true) :
    p.severity = .error := by
  cases p <;> first | rfl | cases h

theorem severity_of_isMissingType (p : Problem) (h : p.isMissingType = true) :
    p.severity = .error := by
  cases p <;> first | rfl | cases h

theorem isTooManyRows_of_not {p : Problem} (h : p.isOfContainers = false) :
    p.isTooManyRows = false := by
  cases p <;> first | rfl | cases h

theorem isMissingType_of_isOfContainers {p : Problem} (h : p.isOfContainers = true) :
    p.isMissingType = false := by
  cases p <;> first | rfl | cases h

end Problem

section

variable {kind : Problem → Bool}

@[simp] theorem problemIf_false (problem : Problem) : problemIf false problem = [] := rfl

theorem filter_problemIf (condition : Bool) (problem : Problem) :
    (problemIf condition problem).filter kind = problemIf (condition && kind problem) problem := by
  cases condition <;> cases hkind : kind problem <;> simp [problemIf, hkind]

/-- Problems found item by item are those of the items with a problem. -/
theorem flatMap_problemIf {α : Type} (items : List α) (condition : α → Bool)
    (problem : α → Problem) :
    items.flatMap (fun item => problemIf (condition item) (problem item)) =
      (items.filter condition).map problem := by
  induction items with
  | nil => rfl
  | cons item rest ih =>
    rw [List.flatMap_cons, ih, List.filter_cons]
    cases condition item <;> rfl

end

/-! ## Rows and their children -/

/-- What is reported on an action row, by its number among the rows and its position among all
    components. -/
def rowReport (limits : Limits) (number position : Nat) (children : List Json) : List Problem :=
  problemIf (limits.actionRows < number) (.tooManyRows limits.actionRows number) ++
    (problemIf (limits.actionRowChildren < children.length)
        (.tooManyRowChildren position limits.actionRowChildren children.length) ++
      (children.filter fun child => child.HasCode 3 ∧ limits.selectOptions < child.optionCount).map
        fun child => .tooManyOptions position limits.selectOptions child.optionCount)

/-- What is reported on the children of a component and on its number among the rows. -/
def containerReport (limits : Limits) (number position : Nat) (component : Json) : List Problem :=
  if component.HasCode 1 then rowReport limits number position (component.children?.getD [])
  else if component.HasCode 9 then
    sectionProblems limits position (component.children?.getD [])
  else []

variable (limits : Limits)

theorem optionProblems_eq (position : Nat) (row : List Json) :
    optionProblems limits position row =
      (row.filter fun child => child.HasCode 3 ∧ limits.selectOptions < child.optionCount).map
        fun child => .tooManyOptions position limits.selectOptions child.optionCount := by
  have hselect (child : Json) : child.kind? = some .stringSelect ↔ child.HasCode 3 :=
    child.kind?_eq_some_iff .stringSelect
  rw [← flatMap_problemIf, optionProblems]
  refine congrArg (List.flatMap · row) (funext fun child => ?_)
  unfold Json.optionCount
  cases (child.get? "options").bind Json.items? with
  | none => simp [problemIf]
  | some options => simp [hselect]

theorem rowReport_eq (number position : Nat) (children : List Json) :
    rowReport limits number position children =
      problemIf (limits.actionRows < number) (.tooManyRows limits.actionRows number) ++
        rowProblems limits position children := by
  rw [rowReport, rowProblems, optionProblems_eq]

/-- The report on the first component, and what is found after it. -/
theorem containerProblems_cons (rows position : Nat) (component : Json) (rest : List Json) :
    containerProblems limits rows position (component :: rest) =
      containerReport limits (rows + 1) position component ++
        containerProblems limits (rows + if component.HasCode 1 then 1 else 0) (position + 1)
          rest := by
  have hrow : component.HasCode 1 ↔ component.kind? = some .actionRow :=
    (component.kind?_eq_some_iff .actionRow).symm
  have hsection : component.HasCode 9 ↔ component.kind? = some .textSection :=
    (component.kind?_eq_some_iff .textSection).symm
  rw [containerProblems, containerReport]
  simp only [hrow, hsection]
  split
  next hkind => simp [hkind, rowReport_eq]
  next hkind => simp [hkind]
  next hnotRow hnotSection =>
    rw [if_neg hnotRow, if_neg hnotRow, if_neg hnotSection]
    rfl

/-- The counter is the number of rows up to a component. -/
theorem containerProblems_eq (rows position : Nat) (components : List Json) :
    containerProblems limits rows position components =
      components.zipIdx.flatMap fun (component, index) =>
        containerReport limits (rows + (components.take (index + 1)).countP (·.HasCode 1))
          (position + index) component := by
  induction components generalizing rows position with
  | nil => rfl
  | cons component rest ih =>
    -- the number of a row counts that row, and only a row needs it
    have hhere : containerReport limits (rows + 1) position component =
        containerReport limits (rows + [component].countP (·.HasCode 1)) position component := by
      by_cases hrow : component.HasCode 1
      · rw [List.countP_singleton, if_pos (decide_eq_true hrow)]
      · rw [containerReport, containerReport, if_neg hrow, if_neg hrow]
    rw [containerProblems_cons, ih, List.zipIdx_cons, List.flatMap_cons, hhere, List.zipIdx_succ,
      List.flatMap_map]
    congr 1
    refine congrArg (List.flatMap · rest.zipIdx) (funext fun ⟨other, index⟩ => ?_)
    simp only [List.take_succ_cons, List.countP_cons, decide_eq_true_eq]
    congr 1 <;> omega

/-- Only the report on a row, and only its first problem, is about too many rows. -/
theorem filter_isTooManyRows_containerReport (number position : Nat) (component : Json) :
    (containerReport limits number position component).filter Problem.isTooManyRows =
      problemIf (component.HasCode 1 ∧ limits.actionRows < number)
        (.tooManyRows limits.actionRows number) := by
  unfold containerReport
  split_ifs with hrow hsection
  · simp [rowReport, filter_problemIf, List.filter_map, Function.comp_def, Problem.isTooManyRows,
      hrow]
  · simp [sectionProblems, filter_problemIf, Problem.isTooManyRows, hrow]
  · simp [problemIf, hrow]

/-- The errors about too many rows are those about the rows past the limit, in order. -/
theorem filter_isTooManyRows_containerProblems (rows position : Nat) (components : List Json) :
    (containerProblems limits rows position components).filter Problem.isTooManyRows =
      (List.range' (max limits.actionRows rows + 1)
        (rows + components.countP (·.HasCode 1) - max limits.actionRows rows)).map
          (.tooManyRows limits.actionRows) := by
  induction components generalizing rows position with
  | nil =>
    have hnone : rows - max limits.actionRows rows = 0 := by omega
    simp [containerProblems, hnone]
  | cons component rest ih =>
    rw [containerProblems_cons, List.filter_append, filter_isTooManyRows_containerReport, ih,
      List.countP_cons]
    by_cases hrow : component.HasCode 1
    · simp only [hrow, decide_true, if_true, true_and]
      by_cases hpast : limits.actionRows < rows + 1
      · -- this row is one too many, and so are all after it
        have hmax : max limits.actionRows rows = rows := by omega
        have hmax' : max limits.actionRows (rows + 1) = rows + 1 := by omega
        have hcount : rows + (rest.countP (·.HasCode 1) + 1) - rows =
          rest.countP (·.HasCode 1) + 1 := by omega
        have hcount' : rows + 1 + rest.countP (·.HasCode 1) - (rows + 1) =
          rest.countP (·.HasCode 1) := by omega
        rw [hmax, hmax', hcount, hcount', List.range'_succ]
        simp [problemIf, hpast]
      · have hmax : max limits.actionRows (rows + 1) = max limits.actionRows rows := by omega
        rw [hmax, Nat.add_assoc, Nat.add_comm 1]
        simp [problemIf, hpast]
    · simp [hrow, problemIf]

/-! ## The whole tree -/

/-- Problems by kind are warnings, so none of them is of a kind that has errors only. -/
theorem notOf_kindProblems {kind : Problem → Bool}
    (h : ∀ p, kind p = true → p.severity = .error) (position : Nat) (component : Json) :
    ∀ p ∈ kindProblems limits position component, kind p = false := by
  intro p hp
  have hwarning : p.severity = .warning :=
    ((reports_kindProblems p.severity limits position component).1 ⟨p, hp, rfl⟩).1
  refine Bool.eq_false_iff.2 fun hkind => ?_
  rw [h p hkind] at hwarning
  cases hwarning

theorem notOf_componentProblems (position : Nat) (component : Json) :
    ∀ p ∈ componentProblems limits position component, p.isOfContainers = false := by
  intro p hp
  rcases List.mem_append.1 hp with hp | hp
  · rw [(mem_problemIf.1 hp).2]
    rfl
  · exact notOf_kindProblems limits Problem.severity_of_isOfContainers position component p hp

/-- The parts of what is found in a payload with an array of components. -/
theorem check_eq {payload : Json} {components : List Json}
    (h : payload.get? "components" = some (.arr components)) :
    check limits payload =
      problemIf (payload.kind? ≠ some .container) .rootType ++
        problemIf (limits.componentsPerMessage < Json.componentCounts components)
          (.tooManyComponents limits.componentsPerMessage (Json.componentCounts components)) ++
        containerProblems limits 0 1 components ++
        components.zipIdx.flatMap fun (component, index) =>
          componentProblems limits (index + 1) component := by
  have hchildren : payload.children? = some components := by rw [Json.children?, h]; rfl
  rw [check, hchildren]
  simp only [treeProblems, List.append_assoc]

/-- **Every action row is counted once.** The errors about too many rows are one for each row past
    the limit, and name the number of that row. The problems in the numbers of rows and children are
    reported component by component and stand together; what is reported on a row is that it is one
    too many, then the number of its children, then its overlong select menus, which name the
    position of the row among all components. -/
theorem check_rows {payload : Json} {components : List Json}
    (h : payload.get? "components" = some (.arr components)) :
    (check limits payload).filter Problem.isTooManyRows =
        (List.range' (limits.actionRows + 1)
          (components.countP (·.HasCode 1) - limits.actionRows)).map
            (.tooManyRows limits.actionRows) ∧
      ∃ before after,
        check limits payload =
          before ++ (components.zipIdx.flatMap fun (component, index) =>
            containerReport limits ((components.take (index + 1)).countP (·.HasCode 1))
              (index + 1) component) ++ after ∧
        ∀ p ∈ before ++ after, p.isOfContainers = false := by
  have hparts := check_eq limits h
  set before : List Problem := problemIf (payload.kind? ≠ some .container) .rootType ++
    problemIf (limits.componentsPerMessage < Json.componentCounts components)
      (.tooManyComponents limits.componentsPerMessage (Json.componentCounts components))
  set after := components.zipIdx.flatMap fun (component, index) =>
    componentProblems limits (index + 1) component
  have hbefore : ∀ p ∈ before, p.isOfContainers = false := by
    intro p hp
    rcases List.mem_append.1 hp with hp | hp
    · rw [(mem_problemIf.1 hp).2]
      rfl
    · rw [(mem_problemIf.1 hp).2]
      rfl
  have hafter : ∀ p ∈ after, p.isOfContainers = false := by
    intro p hp
    obtain ⟨⟨component, index⟩, -, hp⟩ := List.mem_flatMap.1 hp
    exact notOf_componentProblems limits (index + 1) component p hp
  have hnone {problems : List Problem} (h : ∀ p ∈ problems, p.isOfContainers = false) :
      problems.filter Problem.isTooManyRows = [] :=
    List.filter_eq_nil_iff.2 fun p hp => by simp [Problem.isTooManyRows_of_not (h p hp)]
  constructor
  · rw [hparts, List.filter_append, List.filter_append, hnone hbefore, hnone hafter,
      filter_isTooManyRows_containerProblems, List.nil_append, List.append_nil, Nat.max_zero,
      Nat.zero_add]
  · refine ⟨before, after, ?_, fun p hp => (List.mem_append.1 hp).elim (hbefore p) (hafter p)⟩
    rw [hparts, containerProblems_eq]
    simp only [Nat.zero_add, Nat.add_comm 1]

/-- Two rows with a text between them, the first one with a menu of two options, where one of each
    is allowed. -/
theorem check_rows_interleaved :
    let menu : Json := .obj [("options", .arr [.null, .null]), ("type", .num (.int 3))]
    let row : Json := .obj [("components", .arr [menu, .null]), ("type", .num (.int 1))]
    let text : Json := .obj [("content", .str "text"), ("type", .num (.int 10))]
    let components := [row, text, .obj [("type", .num (.double (.ofInt 1)))]]
    let payload : Json := .obj [("components", .arr components), ("type", .num (.int 17))]
    let limits : Limits := { actionRows := 1, actionRowChildren := 1, selectOptions := 1 }
    payload.get? "components" = some (.arr components) ∧
      (check limits payload).filter Problem.isTooManyRows = [.tooManyRows 1 2] ∧
      check limits payload =
        [.tooManyRowChildren 1 1 2, .tooManyOptions 1 1 2, .tooManyRows 1 2] := by
  intro menu row text components payload limits
  have hcomponents : payload.get? "components" = some (.arr components) := rfl
  exact ⟨hcomponents, (check_rows limits hcomponents).1.trans (by decide +kernel),
    by decide +kernel⟩

/-! ## Missing types -/

theorem filter_isMissingType_componentProblems (position : Nat) (component : Json) :
    (componentProblems limits position component).filter Problem.isMissingType =
      problemIf (!Json.truthy (component.get? "type")) (.missingType position) := by
  have hkind : (kindProblems limits position component).filter Problem.isMissingType = [] :=
    List.filter_eq_nil_iff.2 fun p hp => by
      simp [notOf_kindProblems limits Problem.severity_of_isMissingType position component p hp]
  rw [componentProblems, List.filter_append, hkind, filter_problemIf]
  simp [Problem.isMissingType]

theorem isOfContainers_containerReport (number position : Nat) (component : Json) :
    ∀ p ∈ containerReport limits number position component, p.isOfContainers = true := by
  intro p hp
  unfold containerReport at hp
  split_ifs at hp
  · rcases List.mem_append.1 hp with hp | hp
    · rw [(mem_problemIf.1 hp).2]
      rfl
    · rcases List.mem_append.1 hp with hp | hp
      · rw [(mem_problemIf.1 hp).2]
        rfl
      · obtain ⟨child, -, rfl⟩ := List.mem_map.1 hp
        rfl
  · rw [(mem_problemIf.1 hp).2]
    rfl
  · cases hp

theorem filter_isMissingType_containerProblems (rows position : Nat) (components : List Json) :
    (containerProblems limits rows position components).filter Problem.isMissingType = [] := by
  rw [containerProblems_eq, List.filter_eq_nil_iff]
  intro p hp
  obtain ⟨⟨component, index⟩, -, hp⟩ := List.mem_flatMap.1 hp
  have hcontainers := isOfContainers_containerReport limits _ _ component p hp
  simp [Problem.isMissingType_of_isOfContainers hcontainers]

/-- **Every component at the top level must have a type.** The errors about missing types are one
    for each component at the top level without one, in order and with its position. -/
theorem check_missingType {payload : Json} {components : List Json}
    (h : payload.get? "components" = some (.arr components)) :
    (check limits payload).filter Problem.isMissingType =
        (components.zipIdx.filter fun entry => !Json.truthy (entry.1.get? "type")).map
          (fun entry => .missingType (entry.2 + 1)) ∧
      ∀ component ∈ components, Json.truthy (component.get? "type") = false →
        Reports .error (check limits payload) := by
  have hfound : (check limits payload).filter Problem.isMissingType =
      (components.zipIdx.filter fun entry => !Json.truthy (entry.1.get? "type")).map
        (fun entry => .missingType (entry.2 + 1)) := by
    rw [check_eq limits h]
    simp only [List.filter_append, filter_isMissingType_containerProblems, List.filter_flatMap,
      filter_isMissingType_componentProblems, flatMap_problemIf, filter_problemIf,
      Problem.isMissingType, Bool.and_false, problemIf_false, List.nil_append]
  refine ⟨hfound, fun component hmem htype => ?_⟩
  obtain ⟨index, hindex⟩ := List.mem_iff_getElem?.1 hmem
  have hentry : (component, index) ∈
      components.zipIdx.filter fun entry => !Json.truthy (entry.1.get? "type") :=
    List.mem_filter.2 ⟨List.mk_mem_zipIdx_iff_getElem?.2 hindex, by simp [htype]⟩
  have hproblem : .missingType (index + 1) ∈ (check limits payload).filter Problem.isMissingType :=
    hfound ▸ List.mem_map.2 ⟨_, hentry, rfl⟩
  exact ⟨_, (List.mem_filter.1 hproblem).1, rfl⟩

/-- A component without type, one that is no object, and a row with a component without type in it,
    of which nothing is said. -/
theorem check_missingType_content :
    let row : Json := .obj [("components", .arr [.obj []]), ("type", .num (.int 1))]
    let components := [.obj [("content", .str "x")], row, .num (.int 5)]
    let payload : Json := .obj [("components", .arr components), ("type", .num (.int 17))]
    payload.get? "components" = some (.arr components) ∧
      (check {} payload).filter Problem.isMissingType = [.missingType 1, .missingType 3] ∧
      Reports .error (check {} payload) := by
  intro row components payload
  have hcomponents : payload.get? "components" = some (.arr components) := rfl
  obtain ⟨hfound, hreports⟩ := check_missingType {} hcomponents
  exact ⟨hcomponents, hfound.trans (by decide +kernel),
    hreports (.num (.int 5)) (by simp [components]) (by decide)⟩

/-- Types of components inside others are not asked for. -/
theorem not_reports_missingType :
    ¬ ∀ (limits : Limits) (payload : Json) (components : List Json),
      payload.get? "components" = some (.arr components) →
        (∃ component ∈ components.flatMap Json.withNested,
          Json.truthy (component.get? "type") = false) →
        Reports .error (check limits payload) := by
  intro hall
  let row : Json := .obj [("components", .arr [.obj []]), ("type", .num (.int 1))]
  let payload : Json := .obj [("components", .arr [row]), ("type", .num (.int 17))]
  have hnone : check {} payload = [] := by decide +kernel
  have hnested : Json.obj [] ∈ [row].flatMap Json.withNested := by
    have hchildren : row.children?.getD [] = [.obj []] := rfl
    rw [List.flatMap_singleton, Json.withNested_eq, hchildren, List.flatMap_singleton,
      Json.withNested_eq (.obj [])]
    exact List.mem_cons_of_mem row List.mem_cons_self
  have hreports := hall {} payload [row] rfl ⟨.obj [], hnested, rfl⟩
  rw [hnone] at hreports
  exact reports_nil .error hreports

end Component

end GuideCheck
