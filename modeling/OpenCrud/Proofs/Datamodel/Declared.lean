import Mathlib.Data.List.Forall2
import OpenCrud.Proofs.Datamodel.WellFormed

/-!
# What a document declares

The definitions of an accepted document and the types of its datamodel go together one by one, and a type says
what its definition says (`ModelType.DeclaredBy`). So a statement about the types of a datamodel can be told in
terms of the text that was read. Main result: `declaredBy_of_parse`.
-/

namespace OpenCrud

open Sdl Datamodel

/-! ## Declarations -/

/-- A field that says what its definition says. -/
structure ModelField.DeclaredBy (f : ModelField) (d : FieldDef) : Prop where
  name : f.name = d.name.text
  shape : FieldShape.ofTypeExpr? d.type = some ⟨f.typeName, f.isRequired, f.isList⟩
  description : f.description = d.description

/-- A type that says what its definition says. -/
inductive ModelType.DeclaredBy (t : ModelType) : Definition → Prop
  | enum {d : EnumDef} (hname : t.name = d.name.text) (henum : t.isEnum = true)
    (hvalues : t.values = d.values.map (·.name.text)) : DeclaredBy t (.enum d)
  | object {d : ObjectDef} (hname : t.name = d.name.text) (henum : t.isEnum = false)
    (hembedded : t.isEmbedded = hasDirective d.directives "embedded")
    (hdescription : t.description = d.description)
    (hfields : List.Forall₂ ModelField.DeclaredBy t.fields d.fields) : DeclaredBy t (.object d)

theorem ModelType.DeclaredBy.fields {t : ModelType} {d : ObjectDef} (h : t.DeclaredBy (.object d)) :
    List.Forall₂ (fun f e => f ∈ t.fields ∧ f.DeclaredBy e) t.fields d.fields := by
  cases h with
  | object _ _ _ _ hfields => exact (List.forall₂_and_left _ _).mpr ⟨fun _ hf => hf, hfields⟩

/-- The types of a datamodel with the definitions that declare them. -/
abbrev Datamodel.DeclaredBy (types : List ModelType) (document : Document) : Prop :=
  List.Forall₂ ModelType.DeclaredBy types document

/-! ## One definition -/

namespace Datamodel

variable {database : Database}

theorem declaredBy_of_declareField {type : String} {d : FieldDef} {f : ModelField}
    (h : declareField database type d = .ok f) : f.DeclaredBy d := by
  unfold declareField at h
  split at h
  · rename_i shape hshape
    simp only [failField, error_bind, ite_error_eq_ok_iff] at h
    obtain ⟨_, _, _, h⟩ := h
    cases h
    exact ⟨rfl, hshape, rfl⟩
  · cases h

theorem declaredBy_of_declareFields {type : String} {seen : List String} {ds : List FieldDef}
    {fs : List ModelField} (h : declareFields database type seen ds = .ok fs) :
    List.Forall₂ ModelField.DeclaredBy fs ds :=
  ((mapM_eq_ok_iff_forall₂.mp (mapM_of_declareFields h)).imp fun _ _ => declaredBy_of_declareField).flip

theorem declaredBy_of_declareType {d : Definition} {t : ModelType}
    (h : declareType database d = .ok t) : t.DeclaredBy d := by
  cases d with
  | enum d =>
    simp only [declareType, declareEnum, failType, error_bind, ite_error_eq_ok_iff] at h
    obtain ⟨_, h⟩ := h
    cases h
    exact .enum rfl rfl rfl
  | object d =>
    simp only [declareType, declareObject, failType, error_bind, ite_error_eq_ok_iff, bind_eq_ok_iff] at h
    obtain ⟨_, fields, hfields, _, _, h⟩ := h
    cases h
    exact .object rfl rfl rfl rfl (declaredBy_of_declareFields hfields)
  | _ => cases h

theorem declaredBy_of_declareTypes {seen : List String} {document : Document} {types : List ModelType}
    (h : declareTypes database seen document = .ok types) : DeclaredBy types document :=
  ((mapM_eq_ok_iff_forall₂.mp (mapM_of_declareTypes h)).imp fun _ _ => declaredBy_of_declareType).flip

/-! ## Linked relations -/

/-- Links between fields add nothing to what is declared. -/
theorem declaredBy_linkType {d : Definition} {t : ModelType} (h : t.DeclaredBy d) (types : List ModelType) :
    (linkType types t).DeclaredBy d := by
  cases h with
  | enum hname henum hvalues => exact .enum hname henum hvalues
  | object hname henum hembedded hdescription hfields =>
    refine .object hname henum hembedded hdescription (List.forall₂_map_left_iff.mpr ?_)
    exact hfields.imp fun _ _ hf => ⟨hf.name, hf.shape, hf.description⟩

theorem DeclaredBy.linkRelations {document : Document} {types : List ModelType}
    (h : DeclaredBy types document) : DeclaredBy (linkRelations types) document := by
  rw [linkRelations_eq]
  exact List.forall₂_map_left_iff.mpr (h.imp fun _ _ ht => declaredBy_linkType ht types)

/-! ## Main result -/

/-- The types of a source text that is read are the ones that its definitions declare, in their order. -/
theorem declaredBy_of_parse {source : List Char} {types : List ModelType}
    (h : parse database source = .ok types) :
    ∃ document, Document.parse source = .ok document ∧ DeclaredBy types document := by
  unfold parse at h
  split at h
  · rename_i document hdocument
    simp only [ofDocument, bind_eq_ok_iff] at h
    obtain ⟨types, htypes, _, _, _, _, _, _, h⟩ := h
    cases h
    exact ⟨document, hdocument, (declaredBy_of_declareTypes htypes).linkRelations⟩
  · cases h

/-! ## Fields of all definitions -/

/-- Something holds of the fields that a definition declares where it holds of their definitions. -/
theorem forall_fields_iff_of_declareType {P : ModelField → Prop} {Q : FieldDef → Prop}
    (hfield : ∀ type d f, declareField database type d = .ok f → (P f ↔ Q d)) {d : Definition} {t : ModelType}
    (h : declareType database d = .ok t) :
    (∀ f ∈ t.fields, P f) ↔ ∀ object : ObjectDef, d = .object object → ∀ e ∈ object.fields, Q e := by
  cases d with
  | enum d =>
    simp only [declareType, declareEnum, failType, error_bind, ite_error_eq_ok_iff] at h
    obtain ⟨_, h⟩ := h
    cases h
    refine iff_of_true (List.forall_mem_nil _) fun object heq => ?_
    cases heq
  | object d =>
    simp only [declareType, declareObject, failType, error_bind, ite_error_eq_ok_iff, bind_eq_ok_iff] at h
    obtain ⟨_, fields, hfields, _, _, h⟩ := h
    cases h
    have hiff := forall_mem_iff_of_mapM_eq_ok (mapM_of_declareFields hfields) fun e _ f => hfield _ e f
    refine hiff.trans ⟨fun hall _ heq => ?_, fun hall => hall d rfl⟩
    cases heq
    exact hall
  | _ => cases h

/-- Something holds of all fields of an accepted document where it holds of their definitions. -/
theorem forall_fields_iff_of_ofDocument {P : ModelField → Prop} {Q : FieldDef → Prop}
    (hlink : ∀ f link, P { f with relatedField := link } ↔ P f)
    (hfield : ∀ type d f, declareField database type d = .ok f → (P f ↔ Q d)) {document : Document}
    {types : List ModelType} (h : ofDocument database document = .ok types) :
    (∀ t ∈ types, ∀ f ∈ t.fields, P f) ↔
      ∀ object : ObjectDef, .object object ∈ document → ∀ e ∈ object.fields, Q e := by
  simp only [ofDocument, bind_eq_ok_iff] at h
  obtain ⟨types, htypes, _, _, _, _, _, _, h⟩ := h
  cases h
  have hdeclared := forall_mem_iff_of_mapM_eq_ok (mapM_of_declareTypes htypes) fun _ _ _ =>
    forall_fields_iff_of_declareType hfield
  simp only [linkRelations_eq, linkType, List.forall_mem_map, hlink]
  refine hdeclared.trans ⟨fun hall object hobject => hall _ hobject object rfl, ?_⟩
  rintro hall _ hobject object rfl
  exact hall object hobject

/-! ## Definitions by name -/

/-- A definition is found under its name where its type is. -/
theorem DeclaredBy.find? {document : Document} {types : List ModelType} (h : DeclaredBy types document)
    (name : String) : Option.Rel ModelType.DeclaredBy (types.find? (·.name = name))
      (document.find? fun d => d.typeName?.any (·.text = name)) := by
  induction h with
  | nil => exact .none
  | @cons t d types document htd _ ih =>
    have hname : (d.typeName?.any fun n => decide (n.text = name)) = decide (t.name = name) := by
      cases htd with
      | enum hname => rw [hname]; rfl
      | object hname => rw [hname]; rfl
    rw [List.find?_cons, List.find?_cons, hname]
    cases decide (t.name = name) with
    | true => exact .some htd
    | false => exact ih

end Datamodel

end OpenCrud
