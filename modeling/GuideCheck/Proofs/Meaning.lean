import GuideCheck.Schema.Basic

set_option autoImplicit false

/-! # What a schema document means

`Satisfies engine document value` is read off the document itself, by recursion on it, without any
rules that were made from it. A document is a boolean or an object of keywords. A keyword that is
absent asks for nothing, a keyword that has nothing to do with the type of the value neither, and
members that are no keywords do not matter. Where an object has several members with one key, the
last one is the keyword.

Which texts are patterns, and what these match, is what the engine says. -/

namespace GuideCheck

/-- Whether a number has no fraction. -/
def Number.IsWhole : Number → Prop
  | int _ => True
  | double x => Double.one ∣ x.units

/-- Whether a value has the type of this name. -/
def Json.HasType (name : String) : Json → Prop
  | null => name = "null"
  | bool _ => name = "boolean"
  | num n => name = "number" ∨ (name = "integer" ∧ n.IsWhole)
  | str _ => name = "string"
  | arr _ => name = "array"
  | obj _ => name = "object"

namespace Schema

/-! ## Keywords -/

/-- The value of a keyword, which is that of the last member with its name. -/
def keyword? (name : String) (keywords : List (String × Json)) : Option Json :=
  keywords.reverse.lookup name

theorem keyword?_concat (name : String) (keywords : List (String × Json)) (key : String)
    (value : Json) :
    keyword? name (keywords ++ [(key, value)]) =
      if key = name then some value else keyword? name keywords := by
  simp only [keyword?, List.reverse_append, List.reverse_singleton, List.singleton_append,
    List.lookup_cons]
  by_cases h : key = name
  · simp [h]
  · have hne : (name == key) = false := by simpa using Ne.symm h
    simp [h, hne]

theorem mem_of_keyword? {name : String} {keywords : List (String × Json)} {value : Json}
    (h : keyword? name keywords = some value) : (name, value) ∈ keywords := by
  obtain ⟨before, after, hsplit, -⟩ := List.lookup_eq_some_iff.1 h
  rw [← List.mem_reverse, hsplit]
  simp

/-- The members of an object are smaller than the object. -/
theorem sizeOf_lt_of_mem {member : String × Json} {members : List (String × Json)}
    (h : member ∈ members) : sizeOf member.2 < sizeOf (Json.obj members) := by
  have hmember := List.sizeOf_lt_of_mem h
  have hvalue : sizeOf member = 1 + sizeOf member.1 + sizeOf member.2 := rfl
  rw [Json.obj.sizeOf_spec]
  omega

theorem sizeOf_lt_of_keyword? {name : String} {keywords : List (String × Json)} {value : Json}
    (h : keyword? name keywords = some value) : sizeOf value < sizeOf (Json.obj keywords) :=
  sizeOf_lt_of_mem (mem_of_keyword? h)

/-! ## What single keywords ask for -/

/-- Whether a `type` keyword lists a name, alone or in an array. -/
def Lists (types : Json) (name : String) : Prop :=
  types = .str name ∨ ∃ names, types = .arr names ∧ .str name ∈ names

/-- Whether the type of a value is left open or one of those listed. -/
def AllowsType (keywords : List (String × Json)) (value : Json) : Prop :=
  ∀ types, keyword? "type" keywords = some types →
    types = .arr [] ∨ ∃ name, Lists types name ∧ value.HasType name

/-- Whether all required members are present. -/
def HasRequired (keywords members : List (String × Json)) : Prop :=
  ∀ names, keyword? "required" keywords = some (.arr names) →
    ∀ name, .str name ∈ names → name ∈ members.map Prod.fst

/-- Whether `properties` names a key. -/
def Names (keywords : List (String × Json)) (key : String) : Prop :=
  ∃ properties, keyword? "properties" keywords = some (.obj properties) ∧
    key ∈ properties.map Prod.fst

/-- Whether a count lies between two limits, as far as these are given. -/
def CountWithin (least greatest : Option Json) (count : Nat) : Prop :=
  (∀ limit : Int, least = some (.num (.int limit)) → limit ≤ count) ∧
    ∀ limit : Int, greatest = some (.num (.int limit)) → count ≤ limit

/-- Whether a number lies between two limits, as far as these are given; all are compared as
    doubles. -/
def SizeWithin (least greatest : Option Json) (n : Number) : Prop :=
  (∀ limit, least = some (.num limit) → limit.toDouble ≤ n.toDouble) ∧
    ∀ limit, greatest = some (.num limit) → n.toDouble ≤ limit.toDouble

/-- Whether a text matches a pattern, if one is given. -/
def FitsPattern (engine : PatternEngine) (pattern : Option Json) (text : String) : Prop :=
  ∀ source, pattern = some (.str source) →
    ∃ isMatch, engine source = some isMatch ∧ isMatch text = true

/-! ## Documents -/

/-- Whether a value satisfies a schema document whose patterns an engine reads. -/
def Satisfies (engine : PatternEngine) : (document value : Json) → Prop
  | .bool accepts, _ => accepts = true
  | .obj keywords, value =>
    AllowsType keywords value ∧
      match value with
      | .obj members =>
        HasRequired keywords members ∧
          (∀ properties, keyword? "properties" keywords = some (.obj properties) →
            ∀ property ∈ properties, ∀ part, members.lookup property.1 = some part →
              Satisfies engine property.2 part) ∧
          ∀ other, keyword? "additionalProperties" keywords = some other →
            ∀ member ∈ members, ¬ Names keywords member.1 → Satisfies engine other member.2
      | .arr items =>
        CountWithin (keyword? "minItems" keywords) (keyword? "maxItems" keywords) items.length ∧
          ∀ each, keyword? "items" keywords = some each →
            ∀ item ∈ items, Satisfies engine each item
      | .str text =>
        CountWithin (keyword? "minLength" keywords) (keyword? "maxLength" keywords) text.length ∧
          FitsPattern engine (keyword? "pattern" keywords) text
      | .num n => SizeWithin (keyword? "minimum" keywords) (keyword? "maximum" keywords) n
      | .null | .bool _ => True
  | _, _ => False
termination_by document => document
decreasing_by
  · rename_i hproperties hproperty _
    exact Nat.lt_trans (sizeOf_lt_of_mem hproperty) (sizeOf_lt_of_keyword? hproperties)
  · rename_i hother _ _
    exact sizeOf_lt_of_keyword? hother
  · rename_i heach _
    exact sizeOf_lt_of_keyword? heach

end Schema

end GuideCheck
