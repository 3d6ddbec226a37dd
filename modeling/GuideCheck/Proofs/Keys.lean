import GuideCheck.Proofs.RoundTrip
import GuideCheck.Proofs.Validation
import Mathlib.Data.List.Induction
import Mathlib.Data.String.Basic

set_option autoImplicit false

/-! # Objects with one member per key

An object of the JSON that is checked has one member per key. `Json.IsKeyed` says so of all objects
in a value, and what is read of a text is keyed (`Json.isKeyed_of_parse`). A schema that was read
from a keyed document names each property once, whichever engine reads its patterns
(`Schema.isKeyed_of_compile`).

Where keys are different, the member of a key is the one that a lookup finds. -/

namespace GuideCheck

section

variable {α β : Type} [BEq α] [LawfulBEq α] {entries : List (α × β)} {key : α} {b : β}

theorem lookup_eq_none_iff : entries.lookup key = none ↔ key ∉ entries.map Prod.fst := by
  rw [← isSome_lookup_iff, Option.not_isSome_iff_eq_none]

theorem mem_of_lookup (h : entries.lookup key = some b) : (key, b) ∈ entries := by
  obtain ⟨before, after, rfl, -⟩ := List.lookup_eq_some_iff.1 h
  simp

/-- Where keys are different, a lookup finds every entry. -/
theorem lookup_eq_some_iff_mem (hkeys : (entries.map Prod.fst).Nodup) :
    entries.lookup key = some b ↔ (key, b) ∈ entries := by
  refine ⟨mem_of_lookup, fun h => ?_⟩
  induction entries with
  | nil => cases h
  | cons entry entries ih =>
    obtain ⟨name, c⟩ := entry
    rw [List.map_cons, List.nodup_cons] at hkeys
    rcases List.mem_cons.1 h with hfirst | hrest
    · cases hfirst
      exact List.lookup_cons_self
    · have hne : key ≠ name := by
        rintro rfl
        exact hkeys.1 (List.mem_map.2 ⟨_, hrest, rfl⟩)
      rw [List.lookup_cons, beq_false_of_ne hne]
      exact ih hkeys.2 hrest

end

namespace Json

/-! ## Values -/

/-- Whether no object in a value has two members with one key. -/
inductive IsKeyed : Json → Prop
  | null : IsKeyed .null
  | bool (b : Bool) : IsKeyed (.bool b)
  | num (n : Number) : IsKeyed (.num n)
  | str (text : String) : IsKeyed (.str text)
  | arr {items : List Json} (parts : ∀ item ∈ items, IsKeyed item) : IsKeyed (.arr items)
  | obj {members : List (String × Json)} (keys : (members.map Prod.fst).Nodup)
      (parts : ∀ member ∈ members, IsKeyed member.2) : IsKeyed (.obj members)

theorem mem_insertMember {key : String} {value : Json} {sorted : List (String × Json)}
    {member : String × Json} (h : member ∈ insertMember key value sorted) :
    member = (key, value) ∨ member ∈ sorted := by
  induction sorted with
  | nil => exact Or.inl (List.mem_singleton.1 h)
  | cons other sorted ih =>
    rw [insertMember] at h
    split_ifs at h with hlt heq
    · exact List.mem_cons.1 h
    · exact (List.mem_cons.1 h).imp_right (List.mem_cons_of_mem other)
    · rcases List.mem_cons.1 h with rfl | hmem
      · exact Or.inr List.mem_cons_self
      · exact (ih hmem).imp_right (List.mem_cons_of_mem other)

/-- A member that is put in its place leaves the keys in order. -/
theorem pairwise_insertMember (key : String) (value : Json) {sorted : List (String × Json)}
    (h : sorted.Pairwise (·.1 < ·.1)) : (insertMember key value sorted).Pairwise (·.1 < ·.1) := by
  induction sorted with
  | nil => exact List.pairwise_singleton _ _
  | cons other sorted ih =>
    obtain ⟨hother, hsorted⟩ := List.pairwise_cons.1 h
    rw [insertMember]
    split_ifs with hlt heq
    · refine List.pairwise_cons.2 ⟨fun member hmem => ?_, h⟩
      rcases List.mem_cons.1 hmem with rfl | hmem
      · exact hlt
      · exact lt_trans hlt (hother member hmem)
    · rw [heq]
      exact List.pairwise_cons.2 ⟨hother, hsorted⟩
    · refine List.pairwise_cons.2 ⟨fun member hmem => ?_, ih hsorted⟩
      rcases mem_insertMember hmem with rfl | hmem
      · exact lt_of_le_of_ne (not_lt.1 hlt) (Ne.symm heq)
      · exact hother member hmem

theorem sortMembers_cons_reverse (members : List (String × Json)) (member : String × Json) :
    sortMembers (members ++ [member]) = insertMember member.1 member.2 (sortMembers members) := by
  simp [sortMembers]

theorem pairwise_sortMembers (members : List (String × Json)) :
    (sortMembers members).Pairwise (·.1 < ·.1) := by
  induction members using List.reverseRecOn with
  | nil => exact List.Pairwise.nil
  | append_singleton members member ih =>
    rw [sortMembers_cons_reverse]
    exact pairwise_insertMember member.1 member.2 ih

theorem mem_of_mem_sortMembers {members : List (String × Json)} {member : String × Json}
    (h : member ∈ sortMembers members) : member ∈ members := by
  induction members using List.reverseRecOn with
  | nil => exact h
  | append_singleton members last ih =>
    rw [sortMembers_cons_reverse] at h
    rcases mem_insertMember h with rfl | hmem
    · simp
    · exact List.mem_append_left _ (ih hmem)

/-- **A value in normal form has one member per key.** -/
theorem isKeyed_normal (value : Json) : value.normal.IsKeyed := by
  cases value with
  | null => exact .null
  | bool b => exact .bool b
  | num n => exact .num n
  | str text => exact .str text
  | arr items =>
    rw [normal, normalItems_eq_map]
    refine .arr (List.forall_mem_map.2 fun item hitem => ?_)
    have hsize := List.sizeOf_lt_of_mem hitem
    exact isKeyed_normal item
  | obj members =>
    rw [normal, normalMembers_eq_map]
    refine .obj ?_ fun member hmember => ?_
    · have hsorted := pairwise_sortMembers (members.map fun member => (member.1, member.2.normal))
      exact List.pairwise_map.2 (hsorted.imp fun h => ne_of_lt h)
    · obtain ⟨source, hsource, rfl⟩ := List.mem_map.1 (mem_of_mem_sortMembers hmember)
      have hsize := Schema.sizeOf_lt_of_mem hsource
      exact isKeyed_normal source.2
termination_by sizeOf value
decreasing_by
  · simp_all only [Json.arr.sizeOf_spec]
    omega
  · simp_all only

theorem isKeyed_of_parse {text : List Char} {value : Json} (h : parse text = .ok value) :
    value.IsKeyed := by
  unfold parse at h
  cases hread : read text with
  | error error =>
    rw [hread] at h
    cases h
  | ok source =>
    rw [hread] at h
    cases h
    exact isKeyed_normal source

end Json

namespace Schema

/-! ## Schemas -/

/-- Whether all rules in a schema have some property. -/
inductive Every (p : SchemaRules Schema → Prop) : Schema → Prop
  | always (accepts : Bool) : Every p (.always accepts)
  | rules {r : SchemaRules Schema} (here : p r)
      (properties : ∀ property ∈ r.properties, Every p property.2)
      (additional : ∀ schema, r.additional = some schema → Every p schema)
      (items : ∀ schema, r.items = some schema → Every p schema) : Every p (.rules r)

theorem Every.imp {p q : SchemaRules Schema → Prop} (himp : ∀ r, p r → q r) {schema : Schema}
    (h : schema.Every p) : schema.Every q := by
  induction h with
  | always accepts => exact .always accepts
  | rules here _ _ _ properties additional items =>
    exact .rules (himp _ here) properties additional items

/-- Whether no rules in a schema name a property twice. -/
def IsKeyed : Schema → Prop := Every fun r => (r.properties.map Prod.fst).Nodup

theorem isKeyed_of_keyword? {keywords : List (String × Json)} (h : (Json.obj keywords).IsKeyed)
    {name : String} {value : Json} (hvalue : keyword? name keywords = some value) :
    value.IsKeyed := by
  cases h with
  | obj _ parts => exact parts _ (mem_of_keyword? hvalue)

/-- A schema that a document is read as names each property once. -/
theorem isKeyed_of_compiled {engine : PatternEngine} (document : Json)
    (hdocument : document.IsKeyed) {schema : Schema} (h : Compiled engine document schema) :
    schema.IsKeyed := by
  obtain ⟨location, h⟩ := h
  have hparts : ∀ part schema, sizeOf part < sizeOf document → part.IsKeyed →
      Compiled engine part schema → schema.IsKeyed :=
    fun part schema hlt hpart hcompiled => isKeyed_of_compiled part hpart hcompiled
  cases document with
  | bool accepts =>
    simp only [compileAt, Except.ok.injEq] at h
    rw [← h]
    exact .always accepts
  | obj keywords =>
    obtain ⟨r, rfl, hr⟩ := exists_reads h
    -- a keyword with a schema document as its value
    have hkeyword {name : String} {read : Option Schema}
        (hrel : Option.Rel (Compiled engine) (keyword? name keywords) read) :
        ∀ schema, read = some schema → schema.IsKeyed := by
      rintro schema rfl
      cases hvalue : keyword? name keywords with
      | none => rw [hvalue] at hrel; cases hrel
      | some part =>
        rw [hvalue] at hrel
        cases hrel with
        | some hcompiled =>
          exact hparts part schema (sizeOf_lt_of_keyword? hvalue)
            (isKeyed_of_keyword? hdocument hvalue) hcompiled
    rcases hr.properties with ⟨-, hnone⟩ | ⟨documents, hvalue, hcompiled⟩
    · refine .rules ?_ ?_ (hkeyword hr.additional) (hkeyword hr.items)
      · simp [hnone]
      · simp [hnone]
    · cases isKeyed_of_keyword? hdocument hvalue with
      | obj keys parts =>
        refine .rules ?_ ?_ (hkeyword hr.additional) (hkeyword hr.items)
        · rw [← hcompiled.map_fst]
          exact keys
        · have hdocuments : ∀ member ∈ documents, ∀ schema, Compiled engine member.2 schema →
              schema.IsKeyed :=
            fun member hmember schema => hparts member.2 schema
              (Nat.lt_trans (sizeOf_lt_of_mem hmember) (sizeOf_lt_of_keyword? hvalue))
              (parts member hmember)
          have hkeyed := ((List.forall₂_and_left _ _).2 ⟨hdocuments, hcompiled⟩).imp
            fun member property h => And.intro (h.1 property.2 h.2.2) h.2.2
          exact ((List.forall₂_and_left _ _).1 hkeyed.flip).1
  | null => simp [compileAt] at h
  | num n => simp [compileAt] at h
  | str text => simp [compileAt] at h
  | arr items => simp [compileAt] at h
termination_by sizeOf document

/-- Whatever reads the patterns of a keyed document, the schema of the document is keyed. -/
theorem isKeyed_of_compile {engine : PatternEngine} {document : Json} {schema : Schema}
    (hdocument : document.IsKeyed) (h : compile engine document = .ok schema) : schema.IsKeyed :=
  isKeyed_of_compiled document hdocument ⟨"", h⟩

end Schema

end GuideCheck
