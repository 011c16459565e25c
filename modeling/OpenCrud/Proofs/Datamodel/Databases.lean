import OpenCrud.Proofs.Datamodel.Accepted
import OpenCrud.Proofs.Datamodel.Declared
import OpenCrud.Proofs.Datamodel.Relation

/-!
# One source for both databases

A relational database reads something from the names of fields, a document database from directives only. So what is
read for a document database has fewer ids, fewer unique fields and fewer read-only fields (`Relaxed`), and every
check asks for fewer of them. Main result: `parse_document_of_parse_relational`.
-/

namespace OpenCrud

open Sdl Datamodel

/-! ## What the database reads from names -/

/-- A field without what a relational database reads from its name. -/
def ModelField.eraseManaged (f : ModelField) : ModelField :=
  let managed := managedFields.contains f.name
  { f with
    isId := f.isId && !managed
    isUnique := f.isUnique && !managed
    isReadOnly := f.isReadOnly && !managed }

/-- A type without what a relational database reads from the names of its fields. -/
def ModelType.eraseManaged (t : ModelType) : ModelType :=
  { t with fields := t.fields.map (·.eraseManaged) }

namespace Datamodel

/-- A field that is the same but for its name, and is an id or unique at most where the other one is. -/
structure RelaxedField (f f' : ModelField) : Prop where
  erase_eq : f'.eraseManaged = f.eraseManaged
  isId : f'.isId = true → f.isId = true
  isUnique : f'.isUnique = true → f.isUnique = true

/-- A type that is the same but for the names of its fields, and whose fields are relaxed. -/
structure RelaxedType (t t' : ModelType) : Prop where
  erase_eq : t'.eraseManaged = t.eraseManaged
  fields : List.Forall₂ RelaxedField t.fields t'.fields

variable {types types' : List ModelType}

/-! ## Declarations -/

theorem isIdField_of_document {d : FieldDef} (h : isIdField .document d = true) (database : Database) :
    isIdField database d = true := by
  simp only [isIdField, Bool.or_eq_true] at h ⊢
  exact .inr (h.resolve_left (by simp))

/-- Away from the managed names, a field is an id or read-only for either database alike. -/
theorem isIdField_eq {d : FieldDef} (h : managedFields.contains d.name.text = false) :
    isIdField .document d = isIdField .relational d ∧ isReadOnlyField .document d = isReadOnlyField .relational d := by
  have hid : d.name.text ≠ "id" := by
    rintro hid
    rw [hid] at h
    exact absurd h (by decide)
  have hsame : isIdField .document d = isIdField .relational d := by simp [isIdField, hid]
  exact ⟨hsame, by simp only [isReadOnlyField, hsame, h]; simp⟩

/-- No check of a field asks for the database. -/
theorem declareField_document {type : String} {d : FieldDef} {f : ModelField}
    (h : declareField .relational type d = .ok f) :
    ∃ f', declareField .document type d = .ok f' ∧ RelaxedField f f' := by
  unfold declareField at h ⊢
  split at h
  · simp only [failField, error_bind, ite_error_eq_ok_iff] at h ⊢
    obtain ⟨hunique, hdefault, hrelation, h⟩ := h
    cases h
    refine ⟨_, ⟨hunique, hdefault, hrelation, rfl⟩, ?_⟩
    refine ⟨?_, fun hid => isIdField_of_document hid _, fun h => ?_⟩
    -- The names that are managed are just those under which both readings can differ.
    · cases hmanaged : managedFields.contains d.name.text with
      | true => simp only [ModelField.eraseManaged, hmanaged, Bool.not_true, Bool.and_false]
      | false => simp only [ModelField.eraseManaged, isIdField_eq hmanaged]
    · simp only [Bool.or_eq_true] at h ⊢
      exact h.imp_left fun hid => isIdField_of_document hid _
  · cases h

theorem declareFields_document {type : String} {seen : List String} {ds : List FieldDef}
    {fs : List ModelField} (h : declareFields .relational type seen ds = .ok fs) :
    ∃ fs', declareFields .document type seen ds = .ok fs' ∧ List.Forall₂ RelaxedField fs fs' := by
  induction ds generalizing seen fs with
  | nil =>
    cases h
    exact ⟨[], rfl, .nil⟩
  | cons d ds ih =>
    simp only [declareFields, failField, error_bind, ite_error_eq_ok_iff, bind_eq_ok_iff] at h ⊢
    obtain ⟨f, hf, hseen, later, hlater, h⟩ := h
    cases h
    obtain ⟨f', hf', hrelaxed⟩ := declareField_document hf
    have hname : f'.name = f.name := congrArg (·.name) hrelaxed.erase_eq
    obtain ⟨later', hlater', hrest⟩ := ih hlater
    exact ⟨f' :: later', ⟨f', hf', hname ▸ hseen, later', hname ▸ hlater', rfl⟩, .cons hrelaxed hrest⟩

/-- Fewer items pass a test that each item passes at most where the item beside it does. -/
theorem length_filter_le_of_forall₂ {α β : Type} {R : α → β → Prop} {p : α → Bool} {q : β → Bool}
    (hR : ∀ a b, R a b → q b = true → p a = true) {as : List α} {bs : List β} (h : List.Forall₂ R as bs) :
    (bs.filter q).length ≤ (as.filter p).length := by
  induction h with
  | nil => exact Nat.le_refl _
  | @cons a b as bs hab _ ih =>
    rw [List.filter_cons, List.filter_cons]
    cases hq : q b with
    | true =>
      rw [if_pos rfl, if_pos (hR a b hab hq)]
      exact Nat.succ_le_succ ih
    | false =>
      rw [if_neg Bool.false_ne_true]
      split
      · exact Nat.le_succ_of_le ih
      · exact ih

theorem declareType_document {d : Definition} {t : ModelType} (h : declareType .relational d = .ok t) :
    ∃ t', declareType .document d = .ok t' ∧ RelaxedType t t' := by
  cases d with
  | enum d =>
    have hfields : t.fields = [] := by
      simp only [declareType, declareEnum, failType, error_bind, ite_error_eq_ok_iff] at h
      obtain ⟨_, h⟩ := h
      cases h
      rfl
    exact ⟨t, h, rfl, by simp [hfields]⟩
  | object d =>
    simp only [declareType, declareObject, failType, error_bind, ite_error_eq_ok_iff, bind_eq_ok_iff] at h ⊢
    obtain ⟨_, fields, hfields, hempty, hids, h⟩ := h
    cases h
    obtain ⟨fields', hfields', hrelaxed⟩ := declareFields_document hfields
    have herase : fields'.map (·.eraseManaged) = fields.map (·.eraseManaged) :=
      map_eq_map_of_forall₂ (hrelaxed.imp fun _ _ h => h.erase_eq)
    refine ⟨_, ⟨by simp [Database.allowsEmbedded], fields', hfields', ?_, ?_, rfl⟩, ?_, hrelaxed⟩
    · rw [List.isEmpty_iff, ← List.length_eq_zero_iff] at hempty ⊢
      rwa [← hrelaxed.length_eq]
    · exact fun hc => hids (Nat.lt_of_lt_of_le hc (length_filter_le_of_forall₂ (fun _ _ h => h.isId) hrelaxed))
    · simp only [ModelType.eraseManaged, herase]
  | _ => cases h

/-! ## Types that fit together -/

theorem keepsKinds_eraseManaged : KeepsKinds ModelType.eraseManaged where
  name _ := rfl
  isEnum _ := rfl
  isEmbedded _ := rfl
  values _ := rfl

theorem RelaxedType.name_eq {t t' : ModelType} (h : RelaxedType t t') : t'.name = t.name :=
  congrArg (·.name) h.erase_eq

/-- Nothing is wrong with a relaxed field where nothing is wrong with the field. -/
theorem relationProblem?_relaxed {related : ModelType} {f f' : ModelField} (h : RelaxedField f f')
    (hf : relationProblem? related f = none) : relationProblem? related f' = none := by
  have hdefault : f'.defaultValue = f.defaultValue := congrArg (·.defaultValue) h.erase_eq
  have hrelation : f'.relationName = f.relationName := congrArg (·.relationName) h.erase_eq
  cases henum : related.isEnum with
  | true =>
    rw [relationProblem?, if_pos henum, hdefault, hrelation]
    rwa [relationProblem?, if_pos henum] at hf
  | false =>
    obtain ⟨hnone, hunique⟩ := relationProblem?_relation henum hf
    have hunique' : f'.isUnique = false := by
      rw [Bool.eq_false_iff] at hunique ⊢
      exact fun hc => hunique (h.isUnique hc)
    simp [relationProblem?, henum, hdefault, hnone, hunique']

theorem referenceProblem?_relaxed {f f' : ModelField} (h : RelaxedField f f')
    (hf : referenceProblem? types f = none) : referenceProblem? types f' = none := by
  have htypeName : f'.typeName = f.typeName := congrArg (·.typeName) h.erase_eq
  rw [referenceProblem?, htypeName]
  unfold referenceProblem? at hf
  split at hf
  · rename_i hscalar
    rw [if_pos hscalar]
  · rename_i hscalar
    rw [if_neg hscalar]
    split at hf
    · cases hf
    · exact relationProblem?_relaxed h hf

theorem Compatible.relaxed (h : Compatible types) (hrelaxed : List.Forall₂ RelaxedType types types') :
    Compatible types' := by
  have herase : types'.map (·.eraseManaged) = types.map (·.eraseManaged) :=
    map_eq_map_of_forall₂ (hrelaxed.imp fun _ _ h => h.erase_eq)
  have hnames : types'.map (·.name) = types.map (·.name) :=
    map_eq_map_of_forall₂ (hrelaxed.imp fun _ _ h => h.name_eq)
  have hclaims : claims types' = claims types := by
    rw [← keepsKinds_eraseManaged.claims_map types', herase, keepsKinds_eraseManaged.claims_map]
  have hback : ∀ t' ∈ types', ∃ t ∈ types, RelaxedType t t' := fun _ ht' => exists_of_forall₂ hrelaxed ht'
  refine {
    nodup_names := hnames ▸ h.nodup_names
    not_scalar := fun t' ht' => ?_
    not_reserved := fun t' ht' => ?_
    not_generated := fun t' ht' u' hu' henum => ?_
    owner_eq := hclaims ▸ h.owner_eq
    reference := fun t' ht' f' hf' => ?_ }
  · obtain ⟨t, ht, hrel⟩ := hback t' ht'
    exact hrel.name_eq ▸ h.not_scalar t ht
  · obtain ⟨t, ht, hrel⟩ := hback t' ht'
    exact hrel.name_eq ▸ h.not_reserved t ht
  · obtain ⟨t, ht, htrel⟩ := hback t' ht'
    obtain ⟨u, hu, hurel⟩ := hback u' hu'
    have henum' : u.isEnum = false := (congrArg (·.isEnum) hurel.erase_eq).symm.trans henum
    exact htrel.name_eq ▸ hurel.name_eq ▸ h.not_generated t ht u hu henum'
  · obtain ⟨t, ht, hrel⟩ := hback t' ht'
    obtain ⟨f, hf, hfrel⟩ := exists_of_forall₂ hrel.fields hf'
    rw [← keepsKinds_eraseManaged.referenceProblem?_map types', herase,
      keepsKinds_eraseManaged.referenceProblem?_map]
    exact referenceProblem?_relaxed hfrel (h.reference t ht f hf)

/-! ## Linked relations -/

theorem keepsRelations_eraseManaged :
    KeepsRelations ModelType.eraseManaged fun _ f => f.eraseManaged where
  toKeepsKinds := keepsKinds_eraseManaged
  fields _ := rfl
  fieldName _ _ := rfl
  typeName _ _ := rfl
  relationName _ _ := rfl

/-- Links do not ask for what is read from names. -/
theorem map_eraseManaged_linkRelations (types : List ModelType) :
    (linkRelations types).map (·.eraseManaged) = linkRelations (types.map (·.eraseManaged)) := by
  simp only [linkRelations, List.map_map]
  refine List.map_congr_left fun t _ => ?_
  have hfields : (t.fields.map fun f => { f with relatedField := backRelation? types t f }).map
      (·.eraseManaged) = (t.fields.map (·.eraseManaged)).map fun f =>
        { f with relatedField := backRelation? (types.map (·.eraseManaged)) t.eraseManaged f } := by
    rw [List.map_map, List.map_map]
    refine List.map_congr_left fun f _ => ?_
    have hback := keepsRelations_eraseManaged.backRelation?_map types t f
    simp only [Function.comp, hback]
    rfl
  exact congrArg (fun fields => { t with fields := fields }) hfields

/-! ## Main result -/

/-- Every source that is accepted for a relational database is accepted for a document database, and what is read
differs at most in what a relational database reads from the names of fields. -/
theorem parse_document_of_parse_relational {source : List Char} (h : parse .relational source = .ok types) :
    ∃ types', parse .document source = .ok types' ∧
      types'.map (·.eraseManaged) = types.map (·.eraseManaged) := by
  obtain ⟨document, hdocument, h⟩ := parse_eq_ok_iff.mp h
  obtain ⟨declared, hdeclared, hcompatible, rfl⟩ := ofDocument_eq_ok_iff.mp h
  obtain ⟨declared', hdeclared', hrelaxed⟩ :=
    exists_mapM_of_forall (fun _ _ => declareType_document) hdeclared
  refine ⟨linkRelations declared', parse_eq_ok_iff.mpr ⟨document, hdocument, ?_⟩, ?_⟩
  · exact ofDocument_eq_ok_iff.mpr ⟨declared', hdeclared', hcompatible.relaxed hrelaxed, rfl⟩
  · have herase : declared'.map (·.eraseManaged) = declared.map (·.eraseManaged) :=
      map_eq_map_of_forall₂ (hrelaxed.imp fun _ _ h => h.erase_eq)
    rw [map_eraseManaged_linkRelations, map_eraseManaged_linkRelations, herase]

theorem parse_both_drafts : ∃ types types', parse .relational draftsSource = .ok types ∧
    parse .document draftsSource = .ok types' ∧
      types'.map (·.eraseManaged) = types.map (·.eraseManaged) := by
  obtain ⟨types, h⟩ : ∃ types, parse .relational draftsSource = .ok types := exists_eq_ok (by decide +kernel)
  obtain ⟨types', h', herase⟩ := parse_document_of_parse_relational h
  exact ⟨types, types', h, h', herase⟩

end Datamodel

end OpenCrud
