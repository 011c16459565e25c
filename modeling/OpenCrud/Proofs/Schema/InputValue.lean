import Mathlib.Data.List.Nodup
import Mathlib.Logic.Relation
import OpenCrud.Schema.Lookup
import OpenCrud.Value

/-!
# Values of input types

Which constants are values of an input type (`Schema.Takes`), and which input objects an input object cannot do
without (`Schema.Demands`). Constants are finite trees, so an input object has a value only where what it demands
comes to an end. A value of an input object needs the fields that are not null, and no others
(`Schema.exists_takes_object`).
-/

namespace OpenCrud

/-! ## Scalars -/

/-- Whether a scalar has a constant among its values. Custom scalars take what they are given. -/
def Scalar.takes : Scalar → Value → Bool
  | .string, .text _ => true
  | .int, .int n => -2147483648 ≤ n && n ≤ 2147483647
  | .float, .int _ | .float, .float _ => true
  | .boolean, .bool _ => true
  | .id, .text _ | .id, .int _ => true
  | .long, v | .dateTime, v | .uuid, v | .json, v => v.present?.isSome
  | _, _ => false

theorem Scalar.exists_takes (scalar : Scalar) : ∃ v : Value, v ≠ .null ∧ scalar.takes v = true := by
  cases scalar with
  | int | float => exact ⟨.int 0, nofun, rfl⟩
  | boolean => exact ⟨.bool true, nofun, rfl⟩
  | _ => exact ⟨.text "", nofun, rfl⟩

/-! ## Input objects -/

namespace TypeBody

variable {ρ : Type}

/-- Whether a body is an input object's. -/
def isInputObject : TypeBody ρ → Bool
  | .inputObject _ _ => true
  | _ => false

/-- The fields of an input object. -/
def inputFields : TypeBody ρ → FieldMap (InputField ρ)
  | .inputObject fields _ => fields
  | _ => []

end TypeBody

namespace Schema

variable (s : Schema)

/-- Whether an input object has a field whose type is another input object, not null. No value of the one is
without a value of the other one. -/
structure Demands (t u : NamedType String) : Prop where
  mem : t ∈ s.types
  mem' : u ∈ s.types
  isInputObject : u.body.isInputObject = true
  field : ∃ entry ∈ t.body.inputFields, entry.2.type = .nonNull (.named u.name)

/-- Whether a type has a constant among its values. -/
inductive Takes : TypeExpr String → Value → Prop
  | null {e : TypeExpr String} (hnull : e.isNonNull = false) : Takes e .null
  | nonNull {e : TypeExpr String} {v : Value} (hv : v ≠ .null) (h : Takes e v) : Takes (.nonNull e) v
  | list {e : TypeExpr String} {items : List Value} (h : ∀ v ∈ items, Takes e v) :
    Takes (.list e) (.list items)
  | scalar {scalar : Scalar} {v : Value} (ht : NamedType.ofScalar scalar ∈ s.types)
    (hv : scalar.takes v = true) : Takes (.named scalar.name) v
  | enum {t : NamedType String} {values : FieldMap EnumValue} {value : String} (ht : t ∈ s.types)
    (hbody : t.body = .enum values) (hvalue : value ∈ values.keys) : Takes (.named t.name) (.text value)
  /-- Each field is given once at most and takes what is given. What must not be null is given, and of an object
  that takes one field, one is given and not null. -/
  | object {t : NamedType String} {fields : FieldMap (InputField String)} {isOneOf : Bool}
    {entries : List (String × Value)} (ht : t ∈ s.types) (hbody : t.body = .inputObject fields isOneOf)
    (honce : (entries.map Prod.fst).Nodup)
    (hknown : ∀ entry ∈ entries, entry.1 ∈ fields.keys)
    (hgiven : ∀ entry ∈ entries, ∀ field, (entry.1, field) ∈ fields → Takes field.type entry.2)
    (hneeded : ∀ entry ∈ fields, entry.2.type.isNonNull = true → entry.1 ∈ entries.map Prod.fst)
    (hone : isOneOf = true → ∃ key v, entries = [(key, v)] ∧ v ≠ .null) :
    Takes (.named t.name) (.object entries)

/-- That the input objects of a schema do not demand each other in a circle, and that each of them has a value. -/
structure FiniteInputs : Prop where
  acyclic : ∀ t, ¬Relation.TransGen s.Demands t t
  value : ∀ t ∈ s.types, t.body.isInputObject = true → ∃ entries, s.Takes (.named t.name) (.object entries)

variable {s}

/-! ## Values -/

/-- A list that is not null can be empty. -/
theorem takes_nonNull_list (e : TypeExpr String) : s.Takes (.nonNull (.list e)) (.list []) :=
  .nonNull nofun (.list nofun)

/-- An input object takes a value for each field that is not null, if there are such values. -/
theorem exists_takes_object {t : NamedType String} (ht : t ∈ s.types) {fields : FieldMap (InputField String)}
    (hbody : t.body = .inputObject fields) (hnodup : (fields.map Prod.fst).Nodup)
    (hfields : ∀ entry ∈ fields, entry.2.type.isNonNull = true → ∃ v, s.Takes entry.2.type v) :
    ∃ entries, s.Takes (.named t.name) (.object entries) := by
  have hchoice : ∀ entry : String × InputField String, ∃ v, entry ∈ fields →
      entry.2.type.isNonNull = true → s.Takes entry.2.type v := by
    intro entry
    by_cases hentry : entry ∈ fields ∧ entry.2.type.isNonNull = true
    · obtain ⟨v, hv⟩ := hfields entry hentry.1 hentry.2
      exact ⟨v, fun _ _ => hv⟩
    · exact ⟨.null, fun hmem hnull => absurd ⟨hmem, hnull⟩ hentry⟩
  choose value hvalue using hchoice
  let needed := fields.filter (·.2.type.isNonNull)
  have hkeys : (needed.map fun entry => (entry.1, value entry)).map Prod.fst = needed.map Prod.fst := by
    rw [List.map_map]
    rfl
  refine ⟨needed.map fun entry => (entry.1, value entry), .object ht hbody ?_ ?_ ?_ ?_ nofun⟩
  · rw [hkeys]
    exact hnodup.sublist (List.filter_sublist.map Prod.fst)
  · refine List.forall_mem_map.mpr fun entry hentry => ?_
    exact List.mem_map_of_mem (List.mem_filter.mp hentry).1
  · refine List.forall_mem_map.mpr fun entry hentry field hfield => ?_
    obtain ⟨hmem, hnull⟩ := List.mem_filter.mp hentry
    -- The name is that of one field only.
    have hsame : entry = (entry.1, field) := List.inj_on_of_nodup_map hnodup hmem hfield rfl
    obtain rfl : entry.2 = field := congrArg Prod.snd hsame
    exact hvalue entry hmem hnull
  · intro entry hentry hnull
    rw [hkeys]
    exact List.mem_map_of_mem (List.mem_filter.mpr ⟨hentry, hnull⟩)

end Schema

end OpenCrud
