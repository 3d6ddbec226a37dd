import GuideCheck.Proofs.Acceptance

set_option autoImplicit false

/-! # Routes in a component tree

A component stands in a list of trees at a route: the index of its tree, then the index of a
component inside that tree, and so on (`Json.StandsAt`). Routes are ordered as lists, so a component
comes before those inside it, and these before the next component. `Json.listing` goes through the
trees in this order. The component count is the length of the listing, and one more for each entry
with an accessory (`Json.componentCounts_listing`). -/

namespace GuideCheck.Json

/-! ## Routes -/

/-- Where a component stands in a list of trees. Only an array of components leads further; an
    accessory does not. -/
inductive StandsAt : List Json → List Nat → Json → Prop
  | top {components : List Json} {index : Nat} {component : Json}
      (h : components[index]? = some component) : StandsAt components [index] component
  | inside {components children : List Json} {index : Nat} {route : List Nat}
      {outer component : Json} (houter : components[index]? = some outer)
      (hchildren : outer.get? "components" = some (.arr children))
      (hinside : StandsAt children route component) : StandsAt components (index :: route) component

/-- Whether entries are the components of some trees with their routes, each once, and in the order
    of the routes. -/
structure IsListing (components : List Json) (entries : List (List Nat × Json)) : Prop where
  ordered : (entries.map Prod.fst).Pairwise (· < ·)
  mem_iff : ∀ route component,
    (route, component) ∈ entries ↔ StandsAt components route component

/-- Whether the accessory of a component is an object. -/
def HasAccessory (component : Json) : Prop :=
  ∃ members, component.get? "accessory" = some (.obj members)

theorem hasAccessory_eq_true_iff (component : Json) :
    component.hasAccessory = true ↔ component.HasAccessory := by
  rw [hasAccessory, Option.any_eq_true, HasAccessory]
  constructor
  · rintro ⟨value, hvalue, hobject⟩
    cases value <;> cases hobject
    exact ⟨_, hvalue⟩
  · rintro ⟨members, hmembers⟩
    exact ⟨_, hmembers, rfl⟩

instance (component : Json) : Decidable component.HasAccessory :=
  decidable_of_iff _ (hasAccessory_eq_true_iff component)

/-- What holds of a component as soon as it holds of those inside it holds of every component. -/
@[elab_as_elim]
theorem children_induction {motive : Json → Prop} (component : Json)
    (step : ∀ component, (∀ child ∈ component.children?.getD [], motive child) →
      motive component) : motive component :=
  step component fun child _ => children_induction child step
termination_by component
decreasing_by exact sizeOf_lt_of_mem_children ‹_›

theorem children?_eq_some_iff (component : Json) (children : List Json) :
    component.children? = some children ↔ component.get? "components" = some (.arr children) := by
  rw [children?, Option.bind_eq_some_iff]
  constructor
  · rintro ⟨value, hvalue, hitems⟩
    cases value <;> cases hitems
    exact hvalue
  · intro h
    exact ⟨_, h, rfl⟩

/-! ## The listing -/

/-- A component and those inside it, with their routes from it. -/
def routed (component : Json) : List (List Nat × Json) :=
  ([], component) :: (component.children?.getD []).zipIdx.attach.flatMap
    fun ⟨(child, index), _⟩ => child.routed.map fun (route, inner) => (index :: route, inner)
termination_by component
decreasing_by exact sizeOf_lt_of_mem_children (List.fst_mem_of_mem_zipIdx ‹_›)

/-- The components in a list of trees with their routes. -/
def listing (components : List Json) : List (List Nat × Json) :=
  components.zipIdx.flatMap fun (component, index) =>
    component.routed.map fun (route, inner) => (index :: route, inner)

theorem routed_eq (component : Json) :
    component.routed = ([], component) :: listing (component.children?.getD []) := by
  rw [routed, listing, List.flatMap_subtype fun _ _ => rfl, List.unattach_attach]

/-- The first index of a route tells the tree, and the rest is a route in that tree. -/
theorem mem_listing_iff_routed (components : List Json) (route : List Nat) (component : Json) :
    (route, component) ∈ listing components ↔
      ∃ index inner outer, route = index :: inner ∧ components[index]? = some outer ∧
        (inner, component) ∈ outer.routed := by
  rw [listing, List.mem_flatMap]
  constructor
  · rintro ⟨⟨outer, index⟩, houter, hmem⟩
    obtain ⟨⟨inner, found⟩, hfound, heq⟩ := List.mem_map.1 hmem
    cases heq
    exact ⟨index, inner, outer, rfl, List.mk_mem_zipIdx_iff_getElem?.1 houter, hfound⟩
  · rintro ⟨index, inner, outer, rfl, houter, hmem⟩
    exact ⟨(outer, index), List.mk_mem_zipIdx_iff_getElem?.2 houter,
      List.mem_map.2 ⟨(inner, component), hmem, rfl⟩⟩

/-- A route from a component ends there or goes on in its array of components. -/
theorem mem_routed_iff (outer : Json) (route : List Nat) (component : Json) :
    (route, component) ∈ outer.routed ↔
      (route = [] ∧ component = outer) ∨
        ∃ children, outer.get? "components" = some (.arr children) ∧
          (route, component) ∈ listing children := by
  rw [routed_eq, List.mem_cons, Prod.mk.injEq]
  refine or_congr_right ?_
  simp only [← children?_eq_some_iff]
  cases outer.children? with
  | none => simp [listing]
  | some children => simp

/-- The listing has exactly what stands in the trees. -/
theorem mem_listing_iff (components : List Json) (route : List Nat) (component : Json) :
    (route, component) ∈ listing components ↔ StandsAt components route component := by
  -- on the route: behind its first index it is a route in the components inside a tree
  induction route generalizing components with
  | nil =>
    rw [mem_listing_iff_routed]
    constructor
    · rintro ⟨index, inner, outer, hroute, -⟩
      cases hroute
    · intro h
      cases h
  | cons index route ih =>
    rw [mem_listing_iff_routed]
    constructor
    · rintro ⟨_, _, outer, hroute, houter, hmem⟩
      cases hroute
      rcases (mem_routed_iff outer route component).1 hmem with
        ⟨rfl, rfl⟩ | ⟨children, hchildren, hmem⟩
      · exact .top houter
      · exact .inside houter hchildren ((ih children).1 hmem)
    · intro h
      cases h with
      | top h => exact ⟨index, [], component, rfl, h, (mem_routed_iff _ _ _).2 (.inl ⟨rfl, rfl⟩)⟩
      | inside houter hchildren hinside =>
        exact ⟨index, route, _, rfl, houter,
          (mem_routed_iff _ _ _).2 (.inr ⟨_, hchildren, (ih _).2 hinside⟩)⟩

/-- Routes into one tree come before those into the next, so a listing is in order if the routes in
    each of its trees are. -/
theorem pairwise_listing_of_forall {components : List Json}
    (h : ∀ component ∈ components, component.routed.Pairwise fun a b => a.1 < b.1) :
    (listing components).Pairwise fun a b => a.1 < b.1 := by
  have hindices : components.zipIdx.Pairwise fun a b => a.2 < b.2 := by
    rw [List.pairwise_iff_getElem]
    intro i j hi hj hlt
    simpa using hlt
  refine List.pairwise_flatMap.2
    ⟨fun entry hentry => ?_, hindices.imp fun hlt entry hentry next hnext => ?_⟩
  · refine List.pairwise_map.2 ((h _ (List.fst_mem_of_mem_zipIdx hentry)).imp fun hlt => ?_)
    exact List.cons_lt_cons_iff.2 (.inr ⟨rfl, hlt⟩)
  · obtain ⟨_, -, rfl⟩ := List.mem_map.1 hentry
    obtain ⟨_, -, rfl⟩ := List.mem_map.1 hnext
    exact List.cons_lt_cons_iff.2 (.inl hlt)

theorem pairwise_routed (component : Json) :
    component.routed.Pairwise fun a b => a.1 < b.1 := by
  induction component using children_induction with
  | step component ih =>
    rw [routed_eq, List.pairwise_cons]
    -- the empty route comes first, and no other entry has it
    refine ⟨fun entry hentry => ?_, pairwise_listing_of_forall ih⟩
    obtain ⟨index, inner, outer, hroute, -⟩ := (mem_listing_iff_routed _ entry.1 entry.2).1 hentry
    rw [hroute]
    exact List.nil_lt_cons index inner

theorem isListing_listing (components : List Json) :
    IsListing components (listing components) where
  ordered := List.pairwise_map.2 (pairwise_listing_of_forall fun component _ =>
    pairwise_routed component)
  mem_iff := mem_listing_iff components

/-! ## The count -/

theorem map_snd_listing_of_forall {components : List Json}
    (h : ∀ component ∈ components, component.routed.map Prod.snd = component.withNested) :
    (listing components).map Prod.snd = components.flatMap withNested := by
  have htrees : (listing components).map Prod.snd =
      components.zipIdx.flatMap fun entry => entry.1.withNested := by
    rw [listing, List.map_flatMap]
    refine List.flatMap_congr fun entry hentry => ?_
    rw [List.map_map, ← h entry.1 (List.fst_mem_of_mem_zipIdx hentry)]
    rfl
  have hfirst : components.zipIdx.map Prod.fst = components := List.zipIdx_map_fst 0 components
  rw [htrees, ← List.flatMap_map, hfirst]

theorem map_snd_routed (component : Json) :
    component.routed.map Prod.snd = component.withNested := by
  induction component using children_induction with
  | step component ih =>
    rw [routed_eq, List.map_cons, map_snd_listing_of_forall ih, ← withNested_eq]

theorem treeSize_eq (components : List Json) :
    treeSize components =
      (listing components).length + (listing components).countP (·.2.HasAccessory) := by
  have hsame : (listing components).map Prod.snd = components.flatMap withNested :=
    map_snd_listing_of_forall fun component _ => map_snd_routed component
  have haccessory (component : Json) :
      component.hasAccessory = decide component.HasAccessory := by
    rw [Bool.eq_iff_iff, hasAccessory_eq_true_iff, decide_eq_true_eq]
  rw [treeSize, ← hsame, List.length_map, List.countP_map]
  simp only [Function.comp_def, haccessory]

theorem componentCounts_append (components others : List Json) :
    componentCounts (components ++ others) =
      componentCounts components + componentCounts others := by
  simp only [componentCounts_eq_treeSize, treeSize, List.flatMap_append, List.length_append,
    List.countP_append]
  omega

theorem length_le_componentCounts (components : List Json) :
    components.length ≤ componentCounts components := by
  induction components with
  | nil => exact Nat.zero_le _
  | cons component rest ih =>
    have hone : 1 ≤ component.componentCount := by
      rw [componentCount_eq]
      omega
    rw [componentCounts, List.length_cons]
    omega

/-- **The component count is the size of the tree.** Every component is counted once, wherever it
    stands, and so is every accessory; lists of trees add up, and no tree counts for nothing. -/
theorem componentCounts_listing (components : List Json) :
    IsListing components (listing components) ∧
      componentCounts components =
        (listing components).length + (listing components).countP (·.2.HasAccessory) ∧
      (∀ others, componentCounts (components ++ others) =
        componentCounts components + componentCounts others) ∧
      components.length ≤ componentCounts components :=
  ⟨isListing_listing components,
    (componentCounts_eq_treeSize components).trans (treeSize_eq components),
    componentCounts_append components, length_le_componentCounts components⟩

/-- A section with a text and an accessory, of which nothing inside is counted, a value that is no
    object, and a component that has no array of components. -/
example :
    let inner : Json := .obj [("components", .arr [.null, .null])]
    let outer : Json := .obj [("accessory", inner), ("components", .arr [.obj []])]
    componentCounts [outer, .null, .obj [("components", .str "none")]] = 5 := by
  decide +kernel

end GuideCheck.Json
