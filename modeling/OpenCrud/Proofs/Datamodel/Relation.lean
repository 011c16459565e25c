import OpenCrud.Proofs.Datamodel.Lawful
import OpenCrud.Proofs.Value

/-!
# Links from both sides

A field is linked to the only field that points back along it. Whether one does is asked from one side, so a link
need not be answered: the linked field points back, but it is linked itself only where no second field points back
along it. Main result: `backLink_of_parse`.
-/

namespace OpenCrud.Datamodel

open OpenCrud.Sdl

variable {database : Database} {types : List ModelType} {owner related : ModelType} {f g : ModelField}

/-! ## Changes that keep relations -/

/-- A change of types and of their fields that leaves alone what links are found by. -/
structure KeepsRelations (onType : ModelType → ModelType) (onField : ModelType → ModelField → ModelField) : Prop
    extends KeepsKinds onType where
  fields : ∀ t, (onType t).fields = t.fields.map (onField t)
  fieldName : ∀ t f, (onField t f).name = f.name
  typeName : ∀ t f, (onField t f).typeName = f.typeName
  relationName : ∀ t f, (onField t f).relationName = f.relationName

section KeepsRelations

variable {onType : ModelType → ModelType} {onField : ModelType → ModelField → ModelField}
  (h : KeepsRelations onType onField)

include h

theorem KeepsRelations.pointsBack_eq (owner related : ModelType) (f g : ModelField) :
    pointsBack (onType owner) (onType related) (onField owner f) (onField related g) =
      pointsBack owner related f g := by
  simp only [pointsBack, h.name, h.fieldName, h.typeName, h.relationName]

theorem KeepsRelations.backRelation?_map (types : List ModelType) (owner : ModelType) (f : ModelField) :
    backRelation? (types.map onType) (onType owner) (onField owner f) =
      backRelation? types owner f := by
  unfold backRelation?
  rw [h.typeName, h.find?_map]
  cases types.find? (·.name = f.typeName) with
  | none => rfl
  | some related =>
    have hfilter : (onType related).fields.filter
        (pointsBack (onType owner) (onType related) (onField owner f)) =
          (related.fields.filter (pointsBack owner related f)).map (onField related) := by
      simp only [h.fields, List.filter_map, Function.comp_def, h.pointsBack_eq]
    simp only [Option.map_some, h.isEnum, hfilter]
    -- No candidate, one, or more: a field is linked where there is one.
    rcases related.fields.filter (pointsBack owner related f) with _ | ⟨g, _ | ⟨g', rest⟩⟩
    · rfl
    · simp [h.fieldName]
    · rfl

end KeepsRelations

theorem keepsRelations_linkType (types : List ModelType) :
    KeepsRelations (linkType types) fun t f => { f with relatedField := backRelation? types t f } where
  toKeepsKinds := keepsKinds_linkType types
  fields _ := rfl
  fieldName _ _ := rfl
  typeName _ _ := rfl
  relationName _ _ := rfl

/-! ## What is known of links -/

/-- Types whose fields are linked among each other. -/
structure Linked (types : List ModelType) : Prop where
  wellFormed : WellFormed types
  relatedField : ∀ t ∈ types, ∀ f ∈ t.fields, f.relatedField = backRelation? types t f
  keyed : ∀ t ∈ types, ∀ f ∈ t.fields, ∀ value, f.relationName = some value → value.Keyed

theorem keyed_of_declareField {type : String} {d : FieldDef} (h : declareField database type d = .ok f)
    {value : Value} (hvalue : f.relationName = some value) : value.Keyed := by
  unfold declareField at h
  split at h
  · simp only [failField, error_bind, ite_error_eq_ok_iff] at h
    obtain ⟨_, _, _, h⟩ := h
    cases h
    obtain ⟨directive, _, hargument⟩ := Option.bind_eq_some_iff.mp hvalue
    exact directive.keyed_argument hargument
  · cases h

theorem linked_of_parse {source : List Char} (h : parse database source = .ok types) : Linked types := by
  have hw : WellFormed types := wellFormed_of_parse h
  obtain ⟨declared, rfl, hdeclared⟩ := exists_declared_of_parse h
  refine ⟨hw, ?_, ?_⟩
  · rintro t ht f hf
    obtain ⟨t₀, _, rfl⟩ := List.mem_map.mp ht
    obtain ⟨f₀, _, rfl⟩ := List.mem_map.mp hf
    exact ((keepsRelations_linkType declared).backRelation?_map declared t₀ f₀).symm
  · rintro t ht f hf value hvalue
    obtain ⟨t₀, ht₀, rfl⟩ := List.mem_map.mp ht
    obtain ⟨f₀, hf₀, rfl⟩ := List.mem_map.mp hf
    obtain ⟨d, hd⟩ := hdeclared t₀ ht₀
    obtain ⟨_, _, he⟩ := exists_declareField_of_declareType hd hf₀
    exact keyed_of_declareField he hvalue

/-! ## The only field that points back -/

/-- A field that nothing but itself points back beside is linked to. -/
theorem backRelation?_eq_some (hw : WellFormed types) (hrelated : PointsAt types f related)
    (henum : related.isEnum = false) (hback : PointsBack owner related f g)
    (hunique : ∀ e, PointsBack owner related f e → e = g) : backRelation? types owner f = some g.name := by
  have hnodup : related.fields.Nodup := ((hw.type related hrelated.mem).nodup_fields).of_map
  -- Candidates are counted, so it matters that no field is there twice.
  have hfilter : related.fields.filter (pointsBack owner related f) = [g] := by
    refine List.perm_singleton.mp ((List.perm_ext_iff_of_nodup (hnodup.filter _) (List.nodup_singleton g)).mpr ?_)
    intro e
    rw [List.mem_filter, pointsBack_iff, List.mem_singleton]
    constructor
    · rintro ⟨hmem, htypeName, hrelation, hother⟩
      exact hunique e ⟨hmem, htypeName, hrelation, hother⟩
    · rintro rfl
      exact ⟨hback.mem, hback.typeName_eq, hback.sameRelation, hback.other⟩
  rw [backRelation?, hrelated.find? hw.nodup_names]
  simp [henum, hfilter]

/-- Beside a linked field nothing points back. -/
theorem eq_of_backRelation? (hw : WellFormed types) (hrelated : PointsAt types f related) {name : String}
    (h : backRelation? types owner f = some name) {e : ModelField} (hg : PointsBack owner related f g)
    (he : PointsBack owner related f e) : e = g := by
  have hmem : ∀ e, PointsBack owner related f e → e ∈ related.fields.filter (pointsBack owner related f) :=
    fun e he => List.mem_filter.mpr ⟨he.mem, pointsBack_iff.mpr ⟨he.typeName_eq, he.sameRelation, he.other⟩⟩
  rw [backRelation?, hrelated.find? hw.nodup_names] at h
  simp only at h
  split at h
  · cases h
  · split at h
    · rename_i c hfilter
      rw [hfilter] at hmem
      rw [List.mem_singleton.mp (hmem e he), List.mem_singleton.mp (hmem g hg)]
    · cases h

/-! ## Main result -/

/-- What is known where the field `f` of the type `A` is linked to the field `g` of the type `B`. -/
structure BackLink (A B : ModelType) (f g : ModelField) : Prop where
  back : PointsBack A B f g
  forth : PointsBack B A g f
  /-- The link is answered where nothing else points back along the linked field. -/
  answered_iff : g.relatedField = some f.name ↔ ∀ e, PointsBack B A g e → e = f
  /-- The linked field is linked to nothing else. -/
  answered_or_none : g.relatedField = some f.name ∨ g.relatedField = none

theorem Linked.backLink (h : Linked types) {A B : ModelType} (hA : A ∈ types) (hf : f ∈ A.fields)
    (hB : PointsAt types f B) (hg : g ∈ B.fields) (hlink : f.relatedField = some g.name) :
    BackLink A B f g := by
  have hw := h.wellFormed
  rw [h.relatedField A hA f hf] at hlink
  obtain ⟨t, g', ht, _, hname, hback⟩ := exists_of_backRelation? hlink
  -- A link is a name; the type and the field it names are the given ones.
  obtain rfl : t = B := Option.some.inj ((ht.find? hw.nodup_names).symm.trans (hB.find? hw.nodup_names))
  obtain rfl : g' = g := List.inj_on_of_nodup_map (hw.type t ht.mem).nodup_fields hback.mem hg hname
  have hA' : PointsAt types g' A := ⟨hA, hback.typeName_eq.symm⟩
  have henum : A.isEnum = false := by
    cases henum : A.isEnum with
    | false => rfl
    | true => simp [(hw.type A hA).fields_eq_nil henum] at hf
  have hforth : PointsBack t A g' f := {
    mem := hf
    typeName_eq := ht.name_eq.symm
    sameRelation := by
      rw [Value.sameOption_comm (h.keyed A hA f hf) (h.keyed t ht.mem g' hg)]
      exact hback.sameRelation
    other := fun ⟨htypes, hfields⟩ => hback.other ⟨htypes.symm, hfields.symm⟩ }
  have hanswer : (∀ e, PointsBack t A g' e → e = f) → g'.relatedField = some f.name := by
    rw [h.relatedField t ht.mem g' hg]
    exact backRelation?_eq_some hw hA' henum hforth
  have honly : ∀ {name}, g'.relatedField = some name → ∀ e, PointsBack t A g' e → e = f := by
    intro name hname e he
    rw [h.relatedField t ht.mem g' hg] at hname
    exact eq_of_backRelation? hw hA' hname hforth he
  refine ⟨hback, hforth, ⟨honly, hanswer⟩, ?_⟩
  cases hrelated : g'.relatedField with
  | none => exact .inr rfl
  | some name => exact .inl (hrelated.symm.trans (hanswer (honly hrelated)))

/-- In every accepted datamodel a linked field points back, and it is linked back exactly where only one field
points back along it. -/
theorem backLink_of_parse {source : List Char} (h : parse database source = .ok types) {A B : ModelType}
    (hA : A ∈ types) (hf : f ∈ A.fields) (hB : PointsAt types f B) (hg : g ∈ B.fields)
    (hlink : f.relatedField = some g.name) : BackLink A B f g :=
  (linked_of_parse h).backLink hA hf hB hg hlink

/-- Whether two fields with a property are linked, the first one to the second one. -/
def anyLink (p : ModelField → ModelField → Bool) (types : List ModelType) : Bool :=
  types.any fun A => A.fields.any fun f => types.any fun B => B.fields.any fun g =>
    B.name = f.typeName && f.relatedField = some g.name && p f g

theorem exists_of_anyLink {p : ModelField → ModelField → Bool} (h : anyLink p types = true) :
    ∃ A ∈ types, ∃ f ∈ A.fields, ∃ B, PointsAt types f B ∧ ∃ g ∈ B.fields,
      f.relatedField = some g.name ∧ p f g = true := by
  simp only [anyLink, List.any_eq_true, Bool.and_eq_true, decide_eq_true_eq] at h
  obtain ⟨A, hA, f, hf, B, hB, g, hg, ⟨hname, hlink⟩, hp⟩ := h
  exact ⟨A, hA, f, hf, B, ⟨hB, hname⟩, g, hg, hlink, hp⟩

theorem backLink_drafts : ∃ types, parse .relational draftsSource = .ok types ∧
    ∃ A ∈ types, ∃ f ∈ A.fields, ∃ B, PointsAt types f B ∧ ∃ g ∈ B.fields,
      f.relatedField = some g.name ∧ BackLink A B f g := by
  obtain ⟨types, h, hlink⟩ : ∃ types, parse .relational draftsSource = .ok types ∧
      anyLink (fun f _ => f.name = "posts") types = true := exists_ok_of_any (by decide +kernel)
  obtain ⟨A, hA, f, hf, B, hB, g, hg, hlink, _⟩ := exists_of_anyLink hlink
  exact ⟨types, h, A, hA, f, hf, B, hB, g, hg, hlink, backLink_of_parse h hA hf hB hg hlink⟩

/-- Two fields point at a type that has one field to point back. -/
def twoWaysSource : List Char := "type A { b1: B b2: B } type B { a: A }".toList

/-- Links are not always answered: both fields of the first type are linked, the field of the other is not. -/
theorem link_without_answer : ∃ types, parse .relational twoWaysSource = .ok types ∧
    ∃ A ∈ types, ∃ f ∈ A.fields, ∃ B, PointsAt types f B ∧ ∃ g ∈ B.fields,
      f.relatedField = some g.name ∧ g.relatedField ≠ some f.name := by
  obtain ⟨types, h, hlink⟩ : ∃ types, parse .relational twoWaysSource = .ok types ∧
      anyLink (fun f g => g.relatedField ≠ some f.name) types = true := exists_ok_of_any (by decide +kernel)
  obtain ⟨A, hA, f, hf, B, hB, g, hg, hlink, hanswer⟩ := exists_of_anyLink hlink
  exact ⟨types, h, A, hA, f, hf, B, hB, g, hg, hlink, by simpa using hanswer⟩

end OpenCrud.Datamodel
