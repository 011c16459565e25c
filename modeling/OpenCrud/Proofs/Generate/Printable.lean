import OpenCrud.Proofs.Datamodel.Accepted
import OpenCrud.Proofs.Generate.Assembled
import OpenCrud.Proofs.Generate.Descriptions
import OpenCrud.Proofs.Generate.Memory
import OpenCrud.Proofs.Sdl.EnumValues

/-!
# Schemas that can be printed

A schema is kept from being printed by an enum value whose name is none. Main statement: the schema of an accepted
datamodel has no such value, so it can be printed as soon as it is there (`printableSchema_of_parse`).
-/

namespace OpenCrud

open Datamodel Sdl
open Client (Category)
open MonadExcept (ofExcept)

/-! ## Names of values -/

theorem valueNameFault?_eq_none_iff {text : String} :
    valueNameFault? text = none ↔ isName text.toList = true ∧ text ∉ reservedValues := by
  rw [valueNameFault?, ← nameFault?_eq_none_iff]
  cases nameFault? text with
  | some fault => simp
  | none => simp

theorem valueFault?_of_category {ρ : Type} {d : NamedType ρ} (h : Category.of d ≠ .enum) : d.valueFault? = none := by
  unfold Category.of at h
  unfold NamedType.valueFault?
  cases hbody : d.body with
  | enum => exact absurd (by rw [hbody]) h
  | _ => rfl

theorem valueFault?_map {ρ σ : Type} (f : ρ → σ) (d : NamedType ρ) : (d.map f).valueFault? = d.valueFault? := by
  obtain ⟨name, description, body⟩ := d
  cases body <;> rfl

/-- No enum of an accepted datamodel has a value that is called like a literal. -/
theorem Datamodel.values_of_parse {database : Database} {source : List Char} {types : List ModelType}
    (h : parse database source = .ok types) : ∀ t ∈ types, ∀ value ∈ t.values, value ∉ reservedValues := by
  obtain ⟨document, hdocument, hread⟩ := parse_eq_ok_iff.mp h
  obtain ⟨declared, hdeclared, _, rfl⟩ := ofDocument_eq_ok_iff.mp hread
  rw [linkRelations_eq, List.forall_mem_map]
  intro t ht
  obtain ⟨d, hd, hdeclares⟩ := exists_of_forall₂ (mapM_eq_ok_iff_forall₂.mp hdeclared) ht
  cases d with
  | enum d =>
    simp only [declareType, declareEnum, failType, error_bind, ite_error_eq_ok_iff] at hdeclares
    obtain ⟨_, hdeclares⟩ := hdeclares
    cases hdeclares
    exact List.forall_mem_map.mpr (Sdl.values_of_parse hdocument hd)
  | object d =>
    simp only [declareType, declareObject, failType, error_bind, ite_error_eq_ok_iff, bind_eq_ok_iff] at hdeclares
    obtain ⟨_, fields, _, _, _, hdeclares⟩ := hdeclares
    cases hdeclares
    exact List.forall_mem_nil _
  | _ => cases hdeclares

/-! ## Types -/

namespace Generate

section Types

variable {g : TypeGraph} (h : WellFormed g.types)
  (hvalues : ∀ t ∈ g.types, ∀ value ∈ t.values, value ∉ reservedValues)

include h hvalues

theorem not_reserved_of_enumValues {r : Request} {values : List String} (hmade : enumValues g r = .ok values) :
    ∀ value ∈ values, value ∉ reservedValues := by
  have hunderscore : ∀ word ∈ reservedValues, '_' ∉ word.toList := by decide
  obtain ⟨t, ht, rfl | horder⟩ := enumValues_cases h hmade
  · exact hvalues t ht
  · -- The ways to order have an underscore in their names.
    intro value hvalue hreserved
    obtain ⟨f, _, rfl | rfl⟩ := horder value hvalue
    · exact hunderscore _ hreserved (by simp)
    · exact hunderscore _ hreserved (by simp)

/-- Every type that can be worked out can be printed. -/
theorem valueFault?_of_define {x : Handle} {d : NamedType Handle} (hd : define g (fresh g) x = .ok d) :
    d.valueFault? = none := by
  by_cases hcategory : x.category = .enum
  · obtain ⟨r, rfl, hr⟩ : ∃ r, x = .made r ∧ (r.kind = .enum ∨ r.kind = .orderBy) := by
      cases x with
      | made r =>
        obtain ⟨kind, subject, args⟩ := r
        cases kind
        case enum => exact ⟨_, rfl, Or.inl rfl⟩
        case orderBy => exact ⟨_, rfl, Or.inr rfl⟩
        all_goals cases hcategory
      | scalar | absent => cases hcategory
    obtain ⟨b, hb, hd⟩ := bind_eq_ok_iff.mp hd
    cases hd
    obtain ⟨values, hmade, rfl⟩ : ∃ values, (ofExcept (enumValues g r) : Except Error _) = .ok values ∧
        b = .enum (.ofEntries (values.map (·, {}))) := by
      obtain ⟨kind, subject, args⟩ := r
      rcases hr with rfl | rfl
      all_goals
        obtain ⟨values, hmade, hb⟩ := bind_eq_ok_iff.mp hb
        cases hb
        exact ⟨values, hmade, rfl⟩
    refine List.findSome?_eq_none_iff.mpr fun key hkey => ?_
    obtain ⟨entry, hentry, rfl⟩ := List.mem_map.mp hkey
    obtain ⟨value, hvalue, rfl⟩ := List.mem_map.mp (FieldMap.mem_of_mem_ofEntries hentry)
    refine valueNameFault?_eq_none_iff.mpr ⟨gives_enumValues h r values hmade value hvalue, ?_⟩
    rw [ofExcept_eq] at hmade
    exact not_reserved_of_enumValues h hvalues hmade value hvalue
  · exact valueFault?_of_category (category_of_define_handle hd ▸ hcategory)

theorem valueFault?_of_assembled {s : Schema} (hs : Assembled g s) : s.valueFault? = none := by
  refine List.findSome?_eq_none_iff.mpr fun t ht => ?_
  obtain ⟨x, _, d, hd, rfl⟩ := (hs.types t).mp ht
  rw [valueFault?_map, valueFault?_of_define h hvalues hd]

end Types

/-! ## Main statement -/

/-- For an accepted datamodel, a schema that can be printed is a schema. -/
theorem printableSchema_of_parse {database : Database} {source : List Char} {types : List ModelType}
    (h : parse database source = .ok types) :
    printableSchema (.ofTypes types) = schema (.ofTypes types) := by
  have hwf := wellFormed_of_parse h
  have hvalues := Datamodel.values_of_parse h
  rw [← TypeGraph.types_ofTypes hwf.nodup_names] at hvalues
  rw [printableSchema]
  cases hs : schema (.ofTypes types) with
  | error e => rfl
  | ok s =>
    have hassembled := hs
    rw [schema_eq_assemble] at hassembled
    have hnone := valueFault?_of_assembled hwf.ofTypes hvalues (assembled_of_eq_ok hwf.ofTypes hassembled)
    rw [ok_bind, hnone]
    rfl

end Generate

end OpenCrud
