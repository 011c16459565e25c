import OpenCrud.Proofs.Generate.ObjectFields

/-!
# Descriptions that a schema keeps

A datamodel describes its types and fields, and the schema describes the types and fields of the same names. Main
result: models and embedded types keep their descriptions and those of all their fields, in every schema; enums
are left without one, so a schema keeps all descriptions exactly where no enum of the datamodel has any
(`keepsDescriptions_iff`).
-/

namespace OpenCrud.Generate

open Datamodel

/-! ## What is kept -/

/-- That a type of a schema has the description of a type of the datamodel, and for each of its fields, in order,
a field of the same name and description, and no others. -/
structure DescribedAs (t : ModelType) (d : NamedType String) : Prop where
  description : d.description = t.description
  fields : d.body.outputFields.map (fun entry => (entry.1, entry.2.description)) =
    t.fields.map fun f => (f.name, f.description)

/-- That the types of a schema which are called like the types of a datamodel have their descriptions. -/
def KeepsDescriptions (types : List ModelType) (s : Schema) : Prop :=
  ∀ t ∈ types, ∃ d, s.find? t.name = some d ∧ DescribedAs t d

/-! ## Types -/

section Types

variable {g : TypeGraph} (h : WellFormed g.types) {t : ModelType} (ht : t ∈ g.types)

include h ht

/-- An object is described like the type that it is made from. -/
theorem describedAs_of_define {ask : Ask (Except Error)} {d : NamedType Handle}
    (hd : define g ask (.made (.of .object t.name)) = .ok d) : DescribedAs t (d.map Handle.name) := by
  obtain ⟨interfaces, fields, hfields, rfl⟩ := exists_of_define_object h ht hd
  have hkept : fields.map (fun entry => (entry.1, entry.2.description)) =
      t.fields.map fun f => (f.name, f.description) :=
    map_of_mapM_eq_ok ((objectFields_eq_ok_iff h ht).mp hfields) fun f _ entry hentry => by
      obtain ⟨_, _, rfl, _⟩ := exists_of_objectField hentry
      rfl
  refine ⟨rfl, ?_⟩
  rw [NamedType.map, outputFields_map, List.map_map, ← hkept]
  rfl

variable {s : Schema} (hs : Assembled g s)

include hs

theorem exists_describedAs (henum : t.isEnum = false) : ∃ d, s.find? t.name = some d ∧ DescribedAs t d := by
  have hreached := Assembled.reached_object ht henum
  obtain ⟨d, hd, _⟩ := hs.exists_define h hreached
  exact ⟨d.map Handle.name, hs.find? _ hreached d hd, describedAs_of_define h ht hd⟩

/-- An enum is found without a description, whatever the datamodel says. -/
theorem find?_enum (henum : t.isEnum = true) : s.find? t.name =
    some { name := t.name, body := .enum (.ofEntries (t.values.map (·, {}))) } := by
  have hreached := Assembled.reached_ownType ht
  rw [ownType, henum, if_pos rfl] at hreached
  exact hs.find? _ hreached _ (define_enum h ht)

theorem exists_describedAs_iff :
    (∃ d, s.find? t.name = some d ∧ DescribedAs t d) ↔ (t.isEnum = true → t.description = none) := by
  cases henum : t.isEnum with
  | false => exact iff_of_true (exists_describedAs h ht hs henum) fun hc => absurd hc Bool.false_ne_true
  | true =>
    have hfields := (h.type t ht).fields_eq_nil henum
    rw [find?_enum h ht hs henum]
    constructor
    · rintro ⟨_, ⟨⟩, hdescribed⟩ _
      exact hdescribed.description.symm
    · intro hnone
      exact ⟨_, rfl, (hnone rfl).symm, by rw [hfields]; rfl⟩

end Types

/-! ## Main result -/

/--
Every model and every embedded type of an accepted datamodel has its description in the schema, and so has each
of its fields; a type or field without one has none there. An enum has none in any case, so all descriptions
are kept where no enum has one.
-/
theorem keepsDescriptions_iff {database : Database} {source : List Char} {types : List ModelType}
    (h : parse database source = .ok types) {s : Schema} (hs : schema (.ofTypes types) = .ok s) :
    (∀ t ∈ types, t.isEnum = false → ∃ d, s.find? t.name = some d ∧ DescribedAs t d) ∧
    (∀ t ∈ types, t.isEnum = true →
      ∃ d, s.find? t.name = some d ∧ d.description = none ∧ d.body.outputFields = []) ∧
    (KeepsDescriptions types s ↔ ∀ t ∈ types, t.isEnum = true → t.description = none) := by
  have hwf := (wellFormed_of_parse h).ofTypes
  have htypes := TypeGraph.types_ofTypes (wellFormed_of_parse h).nodup_names
  rw [schema_eq_assemble] at hs
  have hassembled := assembled_of_eq_ok hwf hs
  have hmem : ∀ t ∈ types, t ∈ (TypeGraph.ofTypes types).types := fun t ht => htypes.symm ▸ ht
  refine ⟨fun t ht => exists_describedAs hwf (hmem t ht) hassembled, fun t ht henum => ?_, ?_⟩
  · exact ⟨_, find?_enum hwf (hmem t ht) hassembled henum, rfl, rfl⟩
  · exact forall₂_congr fun t ht => exists_describedAs_iff hwf (hmem t ht) hassembled

/-- A model and an embedded type with descriptions of fields that point at a scalar, an enum and objects. -/
def describedSource : List Char :=
  "\"\"\"A shop\"\"\" type Shop \x7b \"\"\"Its name\"\"\" name: String \"\" kind: Kind offers: [Offer!]! \x7d".toList ++
    "type Offer @embedded \x7b \"\"\"Who offers\"\"\" shop: Shop \x7d enum Kind \x7b OPEN \x7d".toList

theorem keepsDescriptions_shop : ∃ types s, parse .document describedSource = .ok types ∧
    schema (.ofTypes types) = .ok s ∧
    (∀ t ∈ types, t.isEnum = false → ∃ d, s.find? t.name = some d ∧ DescribedAs t d) ∧
    (∀ t ∈ types, t.isEnum = true →
      ∃ d, s.find? t.name = some d ∧ d.description = none ∧ d.body.outputFields = []) ∧
    (KeepsDescriptions types s ↔ ∀ t ∈ types, t.isEnum = true → t.description = none) := by
  obtain ⟨types, s, hparse, hs⟩ : ∃ types s, parse .document describedSource = .ok types ∧
      schema (.ofTypes types) = .ok s :=
    exists_schema_of_isOk (by decide +kernel)
  exact ⟨types, s, hparse, hs, keepsDescriptions_iff hparse hs⟩

/-- An enum with a description. -/
def describedEnum : ModelType where
  name := "E"
  isEnum := true
  values := ["X"]
  description := some "An enum"

/-- The description of an enum is lost. -/
theorem enum_loses_description :
    parse .relational "\"An enum\" enum E { X }".toList = .ok [describedEnum] ∧
    ∃ s, schema (.ofTypes [describedEnum]) = .ok s ∧ ¬KeepsDescriptions [describedEnum] s := by
  obtain ⟨s, hs, hfind⟩ := exists_ok_of_any (x := schema (.ofTypes [describedEnum]))
    (p := fun s => (s.find? "E").any (·.description.isNone)) (by decide +kernel)
  refine ⟨rfl, s, hs, fun hkeeps => ?_⟩
  obtain ⟨d, hd, hdescribed⟩ := hkeeps describedEnum List.mem_cons_self
  rw [describedEnum] at hd
  rw [hd, Option.any_some, hdescribed.description] at hfind
  cases hfind

end OpenCrud.Generate
