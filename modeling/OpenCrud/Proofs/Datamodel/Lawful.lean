import OpenCrud.Proofs.Datamodel.Graph

/-!
# What an accepted datamodel promises

`WellFormed` says what the checks of the parser leave true in the words of these checks. Here the same datamodel
is described in the words of its reader: names, what a field may point at, ids, defaults, relations and the
fields that point back (`Lawful`). Some of it is checked where a field is declared, some where a type is, some
across the types, and the links between fields are set last. Main result: `lawful_of_parse`.
-/

namespace OpenCrud.Datamodel

open OpenCrud.Sdl

/-! ## The properties -/

/-- A type that a field points at. -/
structure PointsAt (types : List ModelType) (f : ModelField) (t : ModelType) : Prop where
  mem : t ∈ types
  name_eq : t.name = f.typeName

/-- A field without parts: a field of a scalar or of an enum. -/
def IsLeaf (types : List ModelType) (f : ModelField) : Prop :=
  Scalar.isScalar f.typeName = true ∨ ∃ t, PointsAt types f t ∧ t.isEnum = true

/-- A field `g` of the type `related` that points back along the field `f` of the type `owner`. -/
structure PointsBack (owner related : ModelType) (f g : ModelField) : Prop where
  mem : g ∈ related.fields
  typeName_eq : g.typeName = owner.name
  sameRelation : Value.sameOption g.relationName f.relationName = true
  other : ¬(related.name = owner.name ∧ g.name = f.name)

/-- What a reader may rely on for a field of the type `owner`. -/
structure LawfulField (types : List ModelType) (owner : ModelType) (f : ModelField) : Prop where
  /-- It points at a scalar or at a declared type. -/
  points : Scalar.isScalar f.typeName = true ∨ ∃ t, PointsAt types f t
  /-- An id is unique and read-only. -/
  id : f.isId = true → f.isUnique = true ∧ f.isReadOnly = true
  /-- What is unique is a scalar or an enum. -/
  unique : f.isUnique = true → IsLeaf types f
  /-- What has a default is neither a list nor a relation. -/
  default : f.defaultValue.isSome = true → f.isList = false ∧ IsLeaf types f
  /-- The default of an enum is one of its values. -/
  enumDefault : ∀ t, PointsAt types f t → t.isEnum = true → ∀ value, f.defaultValue = some value →
    ∃ v ∈ t.values, value = .text v
  /-- What has a relation name points at a type that is no enum. -/
  relation : f.relationName.isSome = true → ∃ t, PointsAt types f t ∧ t.isEnum = false
  /-- The related field is a field of the type it points at, and points back. -/
  related : ∀ name, f.relatedField = some name →
    ∃ t g, PointsAt types f t ∧ t.isEnum = false ∧ g.name = name ∧ PointsBack owner t f g

/-- What a reader may rely on for a type. -/
structure LawfulType (database : Database) (types : List ModelType) (t : ModelType) : Prop where
  not_scalar : Scalar.isScalar t.name = false
  not_reserved : t.name ∉ reservedTypeNames
  /-- An enum has values and no fields. -/
  enum : t.isEnum = true → t.values ≠ [] ∧ t.fields = []
  /-- What is no enum has fields. -/
  fields : t.isEnum = false → t.fields ≠ []
  nodup_fields : (t.fields.map (·.name)).Nodup
  /-- At most one field is the id. -/
  ids : (t.fields.filter (·.isId)).length ≤ 1
  /-- Only document databases embed types. -/
  embedded : t.isEmbedded = true → database = .document
  field : ∀ f ∈ t.fields, LawfulField types t f

/-- What a reader may rely on for a datamodel. -/
structure Lawful (database : Database) (types : List ModelType) : Prop where
  nodup_names : (types.map (·.name)).Nodup
  type : ∀ t ∈ types, LawfulType database types t

/-! ## One definition -/

section Declare

variable {database : Database} {t : ModelType} {f : ModelField}

theorem exists_declareField_of_mem {type : String} {seen : List String} {ds : List FieldDef}
    {fs : List ModelField} (h : declareFields database type seen ds = .ok fs) (hf : f ∈ fs) :
    ∃ d, declareField database type d = .ok f := by
  obtain ⟨d, _, hd⟩ := exists_of_forall₂ (mapM_eq_ok_iff_forall₂.mp (mapM_of_declareFields h)) hf
  exact ⟨d, hd⟩

theorem exists_declareType_of_mem {seen : List String} {document : Document} {types : List ModelType}
    (h : declareTypes database seen document = .ok types) (ht : t ∈ types) :
    ∃ d, declareType database d = .ok t := by
  obtain ⟨d, _, hd⟩ := exists_of_forall₂ (mapM_eq_ok_iff_forall₂.mp (mapM_of_declareTypes h)) ht
  exact ⟨d, hd⟩

/-- A relation name comes from a directive, which no scalar field may have. -/
theorem not_scalar_of_declareField {type : String} {d : FieldDef}
    (h : declareField database type d = .ok f) (hrelation : f.relationName.isSome = true) :
    Scalar.isScalar f.typeName = false := by
  unfold declareField at h
  split at h
  · simp only [failField, error_bind, ite_error_eq_ok_iff] at h
    obtain ⟨_, _, hscalar, h⟩ := h
    cases h
    have hdirective : (findDirective? d.directives "relation").isSome = true :=
      Option.isSome_of_isSome_bind hrelation
    simpa [hdirective] using hscalar
  · cases h

/-- Every field of a declared type is a declared field. -/
theorem exists_declareField_of_declareType {d : Definition} (h : declareType database d = .ok t)
    (hf : f ∈ t.fields) : ∃ type e, declareField database type e = .ok f := by
  cases d with
  | enum d =>
    simp only [declareType, declareEnum, failType, error_bind, ite_error_eq_ok_iff] at h
    obtain ⟨_, h⟩ := h
    cases h
    cases hf
  | object d =>
    simp only [declareType, declareObject, failType, error_bind, ite_error_eq_ok_iff, bind_eq_ok_iff] at h
    obtain ⟨_, fields, hfields, _, _, h⟩ := h
    cases h
    exact ⟨_, exists_declareField_of_mem hfields hf⟩
  | _ => cases h

theorem declareType_relation {d : Definition} (h : declareType database d = .ok t) (hf : f ∈ t.fields)
    (hrelation : f.relationName.isSome = true) : Scalar.isScalar f.typeName = false := by
  obtain ⟨_, _, he⟩ := exists_declareField_of_declareType h hf
  exact not_scalar_of_declareField he hrelation

theorem declareType_embedded {d : Definition} (h : declareType database d = .ok t)
    (hembedded : t.isEmbedded = true) : database = .document := by
  cases d with
  | enum d =>
    simp only [declareType, declareEnum, failType, error_bind, ite_error_eq_ok_iff] at h
    obtain ⟨_, h⟩ := h
    cases h
    cases hembedded
  | object d =>
    simp only [declareType, declareObject, failType, error_bind, ite_error_eq_ok_iff, bind_eq_ok_iff] at h
    obtain ⟨hallowed, _, _, _, _, h⟩ := h
    cases h
    cases database with
    | document => rfl
    | relational =>
      have hdirective : hasDirective d.directives "embedded" = true := hembedded
      simp [Database.allowsEmbedded, hdirective] at hallowed
  | _ => cases h

end Declare

/-! ## What a field points at -/

section Reference

variable {types : List ModelType} {t : ModelType} {f : ModelField}

theorem PointsAt.find? (hnodup : (types.map (·.name)).Nodup) (h : PointsAt types f t) :
    types.find? (·.name = f.typeName) = some t := by
  rw [← h.name_eq]
  exact find?_name_of_mem hnodup h.mem

theorem pointsAt_of_find? (h : types.find? (·.name = f.typeName) = some t) : PointsAt types f t :=
  ⟨List.mem_of_find?_eq_some h, by simpa using List.find?_some h⟩

/-- A field whose reference is in order points at a scalar, or at a type that it suits. -/
theorem pointsAt_of_referenceProblem? (h : referenceProblem? types f = none) :
    Scalar.isScalar f.typeName = true ∨ ∃ t, PointsAt types f t ∧ relationProblem? t f = none := by
  unfold referenceProblem? at h
  split at h
  · rename_i hscalar
    exact .inl hscalar
  · split at h
    · cases h
    · rename_i t hfind
      exact .inr ⟨t, pointsAt_of_find? hfind, h⟩

theorem relationProblem?_enum (henum : t.isEnum = true) (h : relationProblem? t f = none) :
    f.relationName = none ∧ ∀ value, f.defaultValue = some value → ∃ v ∈ t.values, value = .text v := by
  rw [relationProblem?, if_pos henum] at h
  split at h
  · cases h
  · rename_i hrelation
    refine ⟨by simpa using hrelation, fun value hvalue => ?_⟩
    simp only [hvalue] at h
    split at h
    · rename_i hdefault
      cases value with
      | text v => exact ⟨v, by simpa [isEnumDefault] using hdefault, rfl⟩
      | _ => cases hdefault
    · cases h

theorem relationProblem?_relation (henum : t.isEnum = false) (h : relationProblem? t f = none) :
    f.defaultValue = none ∧ f.isUnique = false := by
  rw [relationProblem?, if_neg (by simp [henum])] at h
  split at h
  · cases h
  · rename_i hdefault
    split at h
    · cases h
    · rename_i hunique
      exact ⟨by simpa using hdefault, by simpa using hunique⟩

/-- A field that is no leaf points at a type that is no enum, so it has no default and is not unique. -/
theorem isLeaf_of_referenceProblem? (h : referenceProblem? types f = none)
    (hleaf : f.defaultValue.isSome = true ∨ f.isUnique = true) : IsLeaf types f := by
  rcases pointsAt_of_referenceProblem? h with hscalar | ⟨t, ht, hproblem⟩
  · exact .inl hscalar
  · cases henum : t.isEnum with
    | true => exact .inr ⟨t, ht, henum⟩
    | false =>
      obtain ⟨hdefault, hunique⟩ := relationProblem?_relation henum hproblem
      simp [hdefault, hunique] at hleaf

end Reference

/-! ## Linked relations -/

theorem pointsBack_iff {owner related : ModelType} {f g : ModelField} :
    pointsBack owner related f g = true ↔ g.typeName = owner.name ∧
      Value.sameOption g.relationName f.relationName = true ∧
        ¬(related.name = owner.name ∧ g.name = f.name) := by
  simp [pointsBack, and_assoc, imp_iff_not_or]

/-- The link of a field names a field that points back. -/
theorem exists_of_backRelation? {types : List ModelType} {owner : ModelType} {f : ModelField}
    {name : String} (h : backRelation? types owner f = some name) :
    ∃ t g, PointsAt types f t ∧ t.isEnum = false ∧ g.name = name ∧ PointsBack owner t f g := by
  unfold backRelation? at h
  split at h
  · cases h
  · rename_i t hfind
    split at h
    · cases h
    · rename_i henum
      split at h
      · rename_i g hfilter
        have hg : g ∈ t.fields.filter (pointsBack owner t f) := by simp [hfilter]
        obtain ⟨hmem, hback⟩ := List.mem_filter.mp hg
        obtain ⟨htypeName, hrelation, hother⟩ := pointsBack_iff.mp hback
        refine ⟨t, g, pointsAt_of_find? hfind, by simpa using henum, ?_, hmem, htypeName, hrelation, hother⟩
        exact Option.some.inj h
      · cases h

/-- Links change neither what a field points at nor what points back along it. -/
theorem PointsBack.link {types : List ModelType} {owner related : ModelType} {f g : ModelField}
    (h : PointsBack owner related f g) (link : Option String) :
    PointsBack (linkType types owner) (linkType types related) { f with relatedField := link }
      { g with relatedField := backRelation? types related g } where
  mem := List.mem_map.mpr ⟨g, h.mem, rfl⟩
  typeName_eq := h.typeName_eq
  sameRelation := h.sameRelation
  other := h.other

theorem PointsAt.link {types : List ModelType} {f : ModelField} {t : ModelType} (h : PointsAt types f t)
    (link : Option String) :
    PointsAt (linkRelations types) { f with relatedField := link } (linkType types t) where
  mem := List.mem_map.mpr ⟨t, h.mem, rfl⟩
  name_eq := h.name_eq

/-! ## Main result -/

section Parse

variable {database : Database} {types : List ModelType}

/-- Every type of an accepted datamodel is a declared type with its links. -/
theorem exists_declared_of_parse {source : List Char} (h : parse database source = .ok types) :
    ∃ declared, types = linkRelations declared ∧
      ∀ t ∈ declared, ∃ d, declareType database d = .ok t := by
  unfold parse at h
  split at h
  · simp only [ofDocument, bind_eq_ok_iff] at h
    obtain ⟨declared, hdeclared, _, _, _, _, _, _, h⟩ := h
    cases h
    exact ⟨declared, rfl, fun t ht => exists_declareType_of_mem hdeclared ht⟩
  · cases h

/-- The fields of an accepted type: what a well-formed datamodel says of them, and what only their
declarations and their links know. -/
theorem lawfulField_of_wellFormed (hw : WellFormed types) {t : ModelType} (ht : t ∈ types) {f : ModelField}
    (hf : f ∈ t.fields)
    (hscalar : f.relationName.isSome = true → Scalar.isScalar f.typeName = false)
    (hrelated : ∀ name, f.relatedField = some name →
      ∃ u g, PointsAt types f u ∧ u.isEnum = false ∧ g.name = name ∧ PointsBack t u f g) :
    LawfulField types t f := by
  have hfield : FieldWellFormed f := (hw.type t ht).field f hf
  have hreference : referenceProblem? types f = none := hw.reference t ht f hf
  have hpoints := pointsAt_of_referenceProblem? hreference
  refine {
    points := hpoints.imp_right fun ⟨u, hu, _⟩ => ⟨u, hu⟩
    id := fun hid => ⟨hfield.isUnique_of_isId hid, hfield.isReadOnly_of_isId hid⟩
    unique := fun hunique => isLeaf_of_referenceProblem? hreference (.inr hunique)
    default := fun hdefault => ⟨?_, isLeaf_of_referenceProblem? hreference (.inl hdefault)⟩
    enumDefault := fun u hu henum value hvalue => ?_
    relation := fun hrelation => ?_
    related := hrelated }
  · cases hlist : f.isList with
    | false => rfl
    | true => simp [hfield.defaultValue_of_isList hlist] at hdefault
  · -- No scalar has the name of a declared type, and only one type has it.
    rcases hpoints with hc | ⟨v, hv, hproblem⟩
    · rw [← hu.name_eq, (hw.type u hu.mem).not_scalar] at hc
      cases hc
    · obtain rfl : u = v := Option.some.inj ((hu.find? hw.nodup_names).symm.trans (hv.find? hw.nodup_names))
      exact (relationProblem?_enum henum hproblem).2 value hvalue
  · rcases hpoints with hc | ⟨u, hu, hproblem⟩
    · rw [hscalar hrelation] at hc
      cases hc
    · refine ⟨u, hu, ?_⟩
      cases henum : u.isEnum with
      | false => rfl
      | true => simp [(relationProblem?_enum henum hproblem).1] at hrelation

/-- Every accepted datamodel is lawful, for each kind of database. -/
theorem lawful_of_parse {source : List Char} (h : parse database source = .ok types) :
    Lawful database types := by
  have hw : WellFormed types := wellFormed_of_parse h
  obtain ⟨declared, rfl, hdeclared⟩ := exists_declared_of_parse h
  refine ⟨hw.nodup_names, fun t ht => ?_⟩
  have htype : TypeWellFormed t := hw.type t ht
  obtain ⟨t₀, ht₀, rfl⟩ := List.mem_map.mp ht
  obtain ⟨d, hd⟩ := hdeclared t₀ ht₀
  refine {
    not_scalar := htype.not_scalar
    not_reserved := htype.not_reserved
    enum := fun henum => ⟨htype.values_ne_nil henum, htype.fields_eq_nil henum⟩
    fields := htype.fields_ne_nil
    nodup_fields := htype.nodup_fields
    ids := htype.length_ids_le
    embedded := fun hembedded => declareType_embedded hd hembedded
    field := fun f hf => ?_ }
  refine lawfulField_of_wellFormed hw ht hf (fun hrelation => ?_) (fun name hname => ?_)
  · obtain ⟨f₀, hf₀, rfl⟩ := List.mem_map.mp hf
    exact declareType_relation (f := f₀) hd hf₀ hrelation
  · obtain ⟨f₀, hf₀, rfl⟩ := List.mem_map.mp hf
    obtain ⟨u, g, hu, henum, hg, hback⟩ := exists_of_backRelation? hname
    exact ⟨linkType declared u, { g with relatedField := backRelation? declared u g }, hu.link _, henum, hg,
      hback.link _⟩

end Parse

/-- Two models that relate to each other under a name, and an enum with a default. -/
def draftsSource : List Char :=
  "enum State { DRAFT DONE } type User { id: ID! posts: [Post!]! @relation(name: Writes) } ".toList ++
    "type Post { id: ID! state: State @default(value: DRAFT) author: User! @relation(name: Writes) }".toList

theorem lawful_drafts : ∃ types, parse .relational draftsSource = .ok types ∧ Lawful .relational types := by
  obtain ⟨types, h⟩ : ∃ types, parse .relational draftsSource = .ok types := exists_eq_ok (by decide +kernel)
  exact ⟨types, h, lawful_of_parse h⟩

end OpenCrud.Datamodel
