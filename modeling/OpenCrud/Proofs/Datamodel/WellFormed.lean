import OpenCrud.Datamodel.Parse
import OpenCrud.Proofs.Computation

/-!
# Accepted datamodels are well formed

What may be relied on once a source text has been read. `TypeWellFormed` is what holds of a type by itself,
and `WellFormed` adds what holds of the types together. Main result: `wellFormed_of_parse`.
-/

namespace OpenCrud.Datamodel

open OpenCrud.Sdl

/-! ## The properties -/

/-- What holds of a field of an accepted datamodel by itself. -/
structure FieldWellFormed (f : ModelField) : Prop where
  isName_name : isName f.name.toList
  isUnique_of_isId : f.isId = true → f.isUnique = true
  isReadOnly_of_isId : f.isId = true → f.isReadOnly = true
  defaultValue_of_isList : f.isList = true → f.defaultValue = none

/-- What holds of a type of an accepted datamodel by itself. -/
structure TypeWellFormed (t : ModelType) : Prop where
  isName_name : isName t.name.toList
  not_scalar : Scalar.isScalar t.name = false
  not_reserved : t.name ∉ reservedTypeNames
  isName_value : ∀ value ∈ t.values, isName value.toList
  values_ne_nil : t.isEnum = true → t.values ≠ []
  fields_eq_nil : t.isEnum = true → t.fields = []
  fields_ne_nil : t.isEnum = false → t.fields ≠ []
  field : ∀ f ∈ t.fields, FieldWellFormed f
  nodup_fields : (t.fields.map (·.name)).Nodup
  length_ids_le : (t.fields.filter (·.isId)).length ≤ 1

/-- What holds of the types of an accepted datamodel. -/
structure WellFormed (types : List ModelType) : Prop where
  type : ∀ t ∈ types, TypeWellFormed t
  nodup_names : (types.map (·.name)).Nodup
  not_generated : ∀ t ∈ types, ∀ u ∈ types, u.isEnum = false → t.name ∉ generatedNames u.name
  owner_eq : ∀ a ∈ claims types, ∀ b ∈ claims types,
    a.root = b.root → a.field = b.field → a.owner = b.owner
  reference : ∀ t ∈ types, ∀ f ∈ t.fields, referenceProblem? types f = none

/-! ## One definition -/

/-- What the parser checks of a field by itself. -/
theorem declareField_ok {database : Database} {type : String} {d : FieldDef} {f : ModelField}
    (h : declareField database type d = .ok f) : FieldWellFormed f := by
  unfold declareField at h
  split at h
  · simp only [failField, error_bind, ite_error_eq_ok_iff] at h
    obtain ⟨_, hdefault, _, h⟩ := h
    cases h
    refine ⟨d.name.isName_text, fun hid => ?_, fun hid => ?_, fun hlist => ?_⟩
    · simp only at hid
      simp [hid]
    · simp only at hid
      simp [isReadOnlyField, hid]
    · simp only at hlist
      simpa [hlist] using hdefault
  · cases h

/-- Fields are declared one by one; what was seen before only keeps names from being repeated. -/
theorem mapM_of_declareFields {database : Database} {type : String} {seen : List String} {ds : List FieldDef}
    {fs : List ModelField} (h : declareFields database type seen ds = .ok fs) :
    ds.mapM (declareField database type) = .ok fs := by
  induction ds generalizing seen fs with
  | nil =>
    cases h
    rfl
  | cons d ds ih =>
    simp only [declareFields, failField, error_bind, ite_error_eq_ok_iff, bind_eq_ok_iff] at h
    obtain ⟨f, hf, _, later, hlater, h⟩ := h
    cases h
    rw [List.mapM_cons, hf, ok_bind, ih hlater]
    rfl

/-- So are types. -/
theorem mapM_of_declareTypes {database : Database} {seen : List String} {document : Document}
    {types : List ModelType} (h : declareTypes database seen document = .ok types) :
    document.mapM (declareType database) = .ok types := by
  induction document generalizing seen types with
  | nil =>
    cases h
    rfl
  | cons d ds ih =>
    simp only [declareTypes, bind_eq_ok_iff] at h
    obtain ⟨t, ht, _, _, later, hlater, h⟩ := h
    cases h
    rw [List.mapM_cons, ht, ok_bind, ih hlater]
    rfl

/-- Names of fields are remembered from one field to the next, so no name comes twice. -/
theorem declareFields_ok {database : Database} {type : String} {seen : List String}
    {ds : List FieldDef} {fs : List ModelField} (h : declareFields database type seen ds = .ok fs) :
    (∀ f ∈ fs, FieldWellFormed f ∧ f.name ∉ seen) ∧ (fs.map (·.name)).Nodup := by
  induction ds generalizing seen fs with
  | nil =>
    cases h
    exact ⟨by simp, List.nodup_nil⟩
  | cons d ds ih =>
    simp only [declareFields, failField, error_bind, ite_error_eq_ok_iff, bind_eq_ok_iff] at h
    obtain ⟨f, hf, hseen, later, hlater, h⟩ := h
    cases h
    obtain ⟨hall, hnodup⟩ := ih hlater
    rw [List.map_cons, List.nodup_cons, List.forall_mem_cons]
    refine ⟨⟨⟨declareField_ok hf, by simpa using hseen⟩, fun g hg => ?_⟩, ?_, hnodup⟩
    · exact ⟨(hall g hg).1, fun hc => (hall g hg).2 (List.mem_cons_of_mem _ hc)⟩
    · intro hc
      obtain ⟨g, hg, hgf⟩ := List.mem_map.mp hc
      exact (hall g hg).2 (hgf ▸ List.mem_cons_self)

theorem checkTypeName_ok {seen : List String} {name : String}
    (h : checkTypeName seen name = .ok ()) :
    name ∉ seen ∧ Scalar.isScalar name = false ∧ name ∉ reservedTypeNames := by
  simp only [checkTypeName, failType, error_bind, ite_error_eq_ok_iff] at h
  obtain ⟨hseen, hscalar, hreserved, _⟩ := h
  exact ⟨by simpa using hseen, by simpa using hscalar, by simpa using hreserved⟩

theorem declareEnum_ok {d : EnumDef} {t : ModelType} (h : declareEnum d = .ok t)
    (hscalar : Scalar.isScalar t.name = false) (hreserved : t.name ∉ reservedTypeNames) :
    TypeWellFormed t := by
  simp only [declareEnum, failType, error_bind, ite_error_eq_ok_iff] at h
  obtain ⟨hvalues, h⟩ := h
  cases h
  exact {
    isName_name := d.name.isName_text
    not_scalar := hscalar
    not_reserved := hreserved
    isName_value := List.forall_mem_map.mpr fun value _ => value.name.isName_text
    values_ne_nil := fun _ => by simpa using hvalues
    fields_eq_nil := fun _ => rfl
    fields_ne_nil := nofun
    field := by simp
    nodup_fields := List.nodup_nil
    length_ids_le := by simp }

theorem declareObject_ok {database : Database} {d : ObjectDef} {t : ModelType}
    (h : declareObject database d = .ok t) (hscalar : Scalar.isScalar t.name = false)
    (hreserved : t.name ∉ reservedTypeNames) : TypeWellFormed t := by
  simp only [declareObject, failType, error_bind, ite_error_eq_ok_iff, bind_eq_ok_iff] at h
  obtain ⟨_, fields, hfields, hne, hids, h⟩ := h
  cases h
  obtain ⟨hall, hnodup⟩ := declareFields_ok hfields
  exact {
    isName_name := d.name.isName_text
    not_scalar := hscalar
    not_reserved := hreserved
    isName_value := nofun
    values_ne_nil := nofun
    fields_eq_nil := nofun
    fields_ne_nil := fun _ => by simpa using hne
    field := fun f hf => (hall f hf).1
    nodup_fields := hnodup
    length_ids_le := by simpa using hids }

theorem declareType_ok {database : Database} {d : Definition} {t : ModelType} {seen : List String}
    (h : declareType database d = .ok t) (hname : checkTypeName seen t.name = .ok ()) :
    TypeWellFormed t ∧ t.name ∉ seen := by
  obtain ⟨hseen, hscalar, hreserved⟩ := checkTypeName_ok hname
  refine ⟨?_, hseen⟩
  cases d with
  | enum d => exact declareEnum_ok h hscalar hreserved
  | object d => exact declareObject_ok h hscalar hreserved
  | _ => cases h

/-- Names of types are remembered from one definition to the next, so no name comes twice. -/
theorem declareTypes_ok {database : Database} {seen : List String} {document : Document}
    {types : List ModelType} (h : declareTypes database seen document = .ok types) :
    (∀ t ∈ types, TypeWellFormed t ∧ t.name ∉ seen) ∧ (types.map (·.name)).Nodup := by
  induction document generalizing seen types with
  | nil =>
    cases h
    exact ⟨by simp, List.nodup_nil⟩
  | cons d ds ih =>
    simp only [declareTypes, bind_eq_ok_iff] at h
    obtain ⟨t, ht, _, hname, later, hlater, h⟩ := h
    cases h
    obtain ⟨hall, hnodup⟩ := ih hlater
    rw [List.map_cons, List.nodup_cons, List.forall_mem_cons]
    refine ⟨⟨declareType_ok ht hname, fun u hu => ?_⟩, ?_, hnodup⟩
    · exact ⟨(hall u hu).1, fun hc => (hall u hu).2 (List.mem_cons_of_mem _ hc)⟩
    · intro hc
      obtain ⟨u, hu, hut⟩ := List.mem_map.mp hc
      exact (hall u hu).2 (hut ▸ List.mem_cons_self)

/-! ## Checks across types -/

/-- No declared type has a name that would be generated for a type with fields, its own ones among them. -/
theorem checkGeneratedNames_ok {types : List ModelType} (h : checkGeneratedNames types = .ok ())
    {t u : ModelType} (ht : t ∈ types) (hu : u ∈ types) (henum : u.isEnum = false) :
    t.name ∉ generatedNames u.name := by
  have hnone : generatedOwner? types t.name = none := by
    have hcheck := forM_eq_ok_iff.mp h t ht
    cases howner : generatedOwner? types t.name with
    | none => rfl
    | some owner => simp [howner] at hcheck
  simp only [generatedOwner?, Option.map_eq_none_iff, List.find?_eq_none, List.mem_reverse,
    List.mem_filter] at hnone
  simpa using hnone u ⟨hu, by simp [henum]⟩

/-- Two types that would have one root field are one type. -/
theorem checkClaims_ok {earlier later : List Claim} (h : checkClaims earlier later = .ok ()) :
    ∀ a ∈ later, ∀ b ∈ earlier ++ later, a.root = b.root → a.field = b.field → a.owner = b.owner := by
  induction later generalizing earlier with
  | nil => nofun
  | cons c cs ih =>
    unfold checkClaims at h
    split at h
    · cases h
    · rename_i hfind
      have hc : ∀ b ∈ earlier ++ c :: cs, c.root = b.root → c.field = b.field → c.owner = b.owner := by
        intro b hb hroot hfield
        -- The check compares with what came earlier; later claims are compared with this one.
        rcases List.mem_append.mp hb with hb | hb
        · have hne := List.find?_eq_none.mp hfind b hb
          rw [← hroot, ← hfield] at hne
          simpa using Eq.symm (Decidable.not_not.mp fun howner => hne (by simpa using howner))
        · rcases List.mem_cons.mp hb with rfl | hb
          · rfl
          · exact (ih h b hb c (by simp) hroot.symm hfield.symm).symm
      intro a ha b hb hroot hfield
      rcases List.mem_cons.mp ha with rfl | ha
      · exact hc b hb hroot hfield
      · refine ih h a ha b ?_ hroot hfield
        simp only [List.mem_append, List.mem_cons] at hb ⊢
        rw [or_assoc, or_left_comm]
        exact hb

theorem checkReferences_ok {types : List ModelType} (h : checkReferences types = .ok ())
    {t : ModelType} (ht : t ∈ types) {f : ModelField} (hf : f ∈ t.fields) :
    referenceProblem? types f = none := by
  have hcheck := forM_eq_ok_iff.mp (forM_eq_ok_iff.mp h t ht) f hf
  cases hproblem : referenceProblem? types f with
  | none => rfl
  | some problem => simp [hproblem] at hcheck

/-! ## Changed types -/

/-- A change of types that leaves alone how a type is called and what kind of type it is. -/
structure KeepsKinds (onType : ModelType → ModelType) : Prop where
  name : ∀ t, (onType t).name = t.name
  isEnum : ∀ t, (onType t).isEnum = t.isEnum
  isEmbedded : ∀ t, (onType t).isEmbedded = t.isEmbedded
  values : ∀ t, (onType t).values = t.values

section KeepsKinds

variable {onType : ModelType → ModelType} (h : KeepsKinds onType) (types : List ModelType)

include h

theorem KeepsKinds.find?_map (name : String) :
    (types.map onType).find? (·.name = name) = (types.find? (·.name = name)).map onType := by
  simp only [List.find?_map, Function.comp_def, h.name]

/-- Which root fields a type asks for depends on its name and its kind only. -/
theorem KeepsKinds.claims_map : claims (types.map onType) = claims types := by
  simp only [claims, List.filter_map, List.flatMap_map, Function.comp_def, ModelType.isModel, h.name, h.isEnum,
    h.isEmbedded]

theorem KeepsKinds.referenceProblem?_map (f : ModelField) :
    referenceProblem? (types.map onType) f = referenceProblem? types f := by
  rw [referenceProblem?, referenceProblem?, h.find?_map]
  cases types.find? (·.name = f.typeName) with
  | none => rfl
  | some t => simp only [Option.map_some, relationProblem?, h.name, h.isEnum, h.values]

end KeepsKinds

/-! ## Linked relations -/

/-- A type with its relation fields linked among some types. -/
def linkType (types : List ModelType) (t : ModelType) : ModelType :=
  { t with fields := t.fields.map fun f => { f with relatedField := backRelation? types t f } }

theorem linkRelations_eq (types : List ModelType) :
    linkRelations types = types.map (linkType types) := rfl

theorem keepsKinds_linkType (types : List ModelType) : KeepsKinds (linkType types) where
  name _ := rfl
  isEnum _ := rfl
  isEmbedded _ := rfl
  values _ := rfl

/-- Linking relations changes nothing that is checked of a type by itself. -/
theorem TypeWellFormed.link {t : ModelType} (h : TypeWellFormed t) (types : List ModelType) :
    TypeWellFormed (linkType types t) where
  isName_name := h.isName_name
  not_scalar := h.not_scalar
  not_reserved := h.not_reserved
  isName_value := h.isName_value
  values_ne_nil := h.values_ne_nil
  fields_eq_nil he := by simp [linkType, h.fields_eq_nil he]
  fields_ne_nil he := by simp [linkType, h.fields_ne_nil he]
  field := by
    intro f hf
    obtain ⟨f₀, hf₀, rfl⟩ := List.mem_map.mp hf
    have hw := h.field f₀ hf₀
    exact ⟨hw.isName_name, hw.isUnique_of_isId, hw.isReadOnly_of_isId, hw.defaultValue_of_isList⟩
  nodup_fields := by
    simp only [linkType, List.map_map]
    exact h.nodup_fields
  length_ids_le := by
    simp only [linkType, List.filter_map, List.length_map]
    exact h.length_ids_le

theorem WellFormed.link {types : List ModelType} (h : WellFormed types) :
    WellFormed (linkRelations types) where
  type := by
    intro t ht
    obtain ⟨t₀, ht₀, rfl⟩ := List.mem_map.mp ht
    exact (h.type t₀ ht₀).link types
  nodup_names := by
    rw [linkRelations_eq, List.map_map]
    exact h.nodup_names
  not_generated := by
    intro t ht u hu henum
    obtain ⟨t₀, ht₀, rfl⟩ := List.mem_map.mp ht
    obtain ⟨u₀, hu₀, rfl⟩ := List.mem_map.mp hu
    exact h.not_generated t₀ ht₀ u₀ hu₀ henum
  owner_eq := by
    rw [linkRelations_eq, (keepsKinds_linkType types).claims_map]
    exact h.owner_eq
  reference := by
    intro t ht f hf
    obtain ⟨t₀, ht₀, rfl⟩ := List.mem_map.mp ht
    obtain ⟨f₀, hf₀, rfl⟩ := List.mem_map.mp hf
    exact ((keepsKinds_linkType types).referenceProblem?_map types f₀).trans (h.reference t₀ ht₀ f₀ hf₀)

/-! ## Main result -/

/-- All checks have passed before relations are linked, and linking keeps what they say. -/
theorem wellFormed_of_ofDocument {database : Database} {document : Document} {types : List ModelType}
    (h : ofDocument database document = .ok types) : WellFormed types := by
  simp only [ofDocument, bind_eq_ok_iff] at h
  obtain ⟨types, htypes, _, hnames, _, hclaims, _, hreferences, h⟩ := h
  cases h
  obtain ⟨hall, hnodup⟩ := declareTypes_ok htypes
  refine WellFormed.link ?_
  exact {
    type := fun t ht => (hall t ht).1
    nodup_names := hnodup
    not_generated := fun t ht u hu => checkGeneratedNames_ok hnames ht hu
    owner_eq := fun a ha b hb => checkClaims_ok hclaims a ha b (List.mem_append_right _ hb)
    reference := fun t ht f hf => checkReferences_ok hreferences ht hf }

/-- A source text is read where it is a document and the document is read. -/
theorem parse_eq_ok_iff {database : Database} {source : List Char} {types : List ModelType} :
    parse database source = .ok types ↔
      ∃ document, Document.parse source = .ok document ∧ ofDocument database document = .ok types := by
  unfold parse
  cases Document.parse source with
  | ok document => simp
  | error e => simp

/-- The types of every source text that is read are well formed. -/
theorem wellFormed_of_parse {database : Database} {source : List Char} {types : List ModelType}
    (h : parse database source = .ok types) : WellFormed types := by
  obtain ⟨document, _, hdocument⟩ := parse_eq_ok_iff.mp h
  exact wellFormed_of_ofDocument hdocument

end OpenCrud.Datamodel
