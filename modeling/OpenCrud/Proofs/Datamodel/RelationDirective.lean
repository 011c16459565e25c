import OpenCrud.Proofs.Datamodel.Declared
import OpenCrud.Proofs.Datamodel.Lawful

/-!
# Where `@relation` may stand

A field with the directive `@relation` should point at a model or an embedded type. On scalars the directive itself
is refused, where the field is declared. On enums the name of the relation is refused, once all types are known; so a
directive that names nothing is refused on scalars only. On an enum it is let through, and the field is read as if
it had no such directive. Main result: `relationDirective_iff`.
-/

namespace OpenCrud.Datamodel

open OpenCrud.Sdl

variable {database : Database} {document : Document} {types : List ModelType} {d : FieldDef} {directive : Directive}

/-! ## Fields with the directive -/

/-- A field of a document that has the directive `@relation`; of several such directives the first counts. -/
structure CarriesRelation (document : Document) (d : FieldDef) (directive : Directive) : Prop where
  mem : ∃ object : ObjectDef, .object object ∈ document ∧ d ∈ object.fields
  find : findDirective? d.directives "relation" = some directive

/-- A document with an enum of a name. -/
def DeclaresEnum (document : Document) (name : String) : Prop :=
  ∃ e : EnumDef, .enum e ∈ document ∧ e.name.text = name

/-- What is refused: the directive on a scalar, and a relation with a name on an enum. -/
inductive IsMisplaced (document : Document) (d : FieldDef) (directive : Directive) : Prop
  | scalar (hscalar : Scalar.isScalar d.type.base.text = true)
  | enum (henum : DeclaresEnum document d.type.base.text) (hnamed : directive.argument? "name" ≠ none)

/-- That every field with the directive points at a model or an embedded type. -/
def RelationsOnObjects (document : Document) (types : List ModelType) : Prop :=
  ∀ d directive, CarriesRelation document d directive →
    ∃ t ∈ types, t.name = d.type.base.text ∧ t.isEnum = false

/-- A field without the directive. -/
def dropRelation (d : FieldDef) : FieldDef :=
  { d with directives := d.directives.filter (·.name.text ≠ "relation") }

/-! ## One field -/

theorem typeName_of_shape {e : TypeExpr Name} {shape : FieldShape} (h : FieldShape.ofTypeExpr? e = some shape) :
    shape.typeName = e.base.text := by
  unfold FieldShape.ofTypeExpr? at h
  split at h <;> cases h <;> rfl

/-- A field with the directive is no scalar, and has the name that the directive gives to its relation. -/
theorem relation_of_declareField {type : String} {f : ModelField} (h : declareField database type d = .ok f)
    (hfind : findDirective? d.directives "relation" = some directive) :
    f.typeName = d.type.base.text ∧ Scalar.isScalar f.typeName = false ∧
      f.relationName = directive.argument? "name" := by
  unfold declareField at h
  split at h
  · rename_i shape hshape
    simp only [failField, error_bind, ite_error_eq_ok_iff, hfind] at h
    obtain ⟨_, _, hscalar, h⟩ := h
    cases h
    exact ⟨typeName_of_shape hshape, by simpa using hscalar, rfl⟩
  · cases h

theorem findDirective?_dropRelation {name : String} (hname : name ≠ "relation") :
    findDirective? (dropRelation d).directives name = findDirective? d.directives name := by
  rw [findDirective?, findDirective?, dropRelation, List.find?_filter]
  congr 1
  funext r
  by_cases hr : r.name.text = name
  · simp [hr, hname]
  · simp [hr]

theorem findDirective?_relation_dropRelation : findDirective? (dropRelation d).directives "relation" = none := by
  refine List.find?_eq_none.mpr fun r hr => ?_
  simpa using (List.mem_filter.mp hr).2

/-- A directive that names nothing is not seen, unless it is on a scalar. -/
theorem declareField_dropRelation (type : String) (hscalar : Scalar.isScalar d.type.base.text = false)
    (hfind : findDirective? d.directives "relation" = some directive) (hname : directive.argument? "name" = none) :
    declareField database type (dropRelation d) = declareField database type d := by
  have hother : ∀ name, name ≠ "relation" →
      hasDirective (dropRelation d).directives name = hasDirective d.directives name := by
    intro name hne
    rw [hasDirective, hasDirective, findDirective?_dropRelation hne]
  have hid : isIdField database (dropRelation d) = isIdField database d := by
    rw [isIdField, isIdField, hother "id" (by decide)]
    rfl
  have hreadOnly : isReadOnlyField database (dropRelation d) = isReadOnlyField database d := by
    rw [isReadOnlyField, isReadOnlyField, hid, hother "createdAt" (by decide), hother "updatedAt" (by decide)]
    rfl
  have hdefault : defaultValue? (dropRelation d) = defaultValue? d := by
    rw [defaultValue?, defaultValue?, findDirective?_dropRelation (by decide)]
  unfold declareField
  rw [hid, hreadOnly, hdefault, hother "unique" (by decide), findDirective?_relation_dropRelation, hfind]
  have htype : (dropRelation d).type = d.type := rfl
  rw [htype]
  cases hshape : FieldShape.ofTypeExpr? d.type with
  | none => rfl
  | some shape =>
    have hfree : Scalar.isScalar shape.typeName = false := typeName_of_shape hshape ▸ hscalar
    simp only [hfree, Bool.and_false, Option.bind_some, hname]
    rfl

/-! ## Fields of an accepted document -/

section Accepted

variable (h : ofDocument database document = .ok types)

include h

/-- Every field definition of an accepted document declares a field of one of the types. -/
theorem exists_declareField_of_ofDocument {object : ObjectDef} (hobject : .object object ∈ document)
    (hd : d ∈ object.fields) : ∃ t ∈ types, ∃ f ∈ t.fields, ∃ type link f₀,
      declareField database type d = .ok f₀ ∧ f = { f₀ with relatedField := link } := by
  simp only [ofDocument, bind_eq_ok_iff] at h
  obtain ⟨declared, hdeclared, _, _, _, _, _, _, ⟨⟩⟩ := h
  obtain ⟨t, ht, hobject⟩ := exists_of_forall₂ (mapM_eq_ok_iff_forall₂.mp (mapM_of_declareTypes hdeclared)).flip hobject
  simp only [declareType, declareObject, failType, error_bind, ite_error_eq_ok_iff, bind_eq_ok_iff] at hobject
  obtain ⟨_, fields, hfields, _, _, ⟨⟩⟩ := hobject
  obtain ⟨f, hf, hdeclare⟩ := exists_of_forall₂ (mapM_eq_ok_iff_forall₂.mp (mapM_of_declareFields hfields)).flip hd
  exact ⟨_, List.mem_map_of_mem ht, _, List.mem_map_of_mem hf, _, _, f, hdeclare, rfl⟩

/-- A document defines an enum under the name of a type exactly where the type is an enum. -/
theorem declaresEnum_iff {t : ModelType} (ht : t ∈ types) : DeclaresEnum document t.name ↔ t.isEnum = true := by
  have hnodup := (wellFormed_of_ofDocument h).nodup_names
  simp only [ofDocument, bind_eq_ok_iff] at h
  obtain ⟨declared, hdeclared, _, _, _, _, _, _, ⟨⟩⟩ := h
  have hdeclaredBy : DeclaredBy (linkRelations declared) document :=
    (declaredBy_of_declareTypes hdeclared).linkRelations
  constructor
  · rintro ⟨e, he, hname⟩
    obtain ⟨u, hu, hud⟩ := exists_of_forall₂ hdeclaredBy he
    cases hud with
    | enum huname henum =>
      obtain rfl : u = t := List.inj_on_of_nodup_map hnodup hu ht (huname.trans hname)
      exact henum
  · intro henum
    obtain ⟨d, hd, htd⟩ := exists_of_forall₂ hdeclaredBy.flip ht
    cases htd with
    | @enum e hname => exact ⟨e, hd, hname.symm⟩
    | object _ hobject =>
      rw [hobject] at henum
      cases henum

/-- What a field with the directive points at: no scalar, and an enum only where the directive names nothing. -/
theorem exists_target_of_carriesRelation (hcarries : CarriesRelation document d directive) :
    Scalar.isScalar d.type.base.text = false ∧
      ∃ t ∈ types, t.name = d.type.base.text ∧ (t.isEnum = true → directive.argument? "name" = none) := by
  obtain ⟨object, hobject, hd⟩ := hcarries.mem
  obtain ⟨t, ht, f, hf, type, link, f₀, hdeclare, rfl⟩ := exists_declareField_of_ofDocument h hobject hd
  obtain ⟨htypeName, hscalar, hrelation⟩ := relation_of_declareField hdeclare hcarries.find
  rw [← htypeName]
  refine ⟨hscalar, ?_⟩
  have hreference := (wellFormed_of_ofDocument h).reference t ht _ hf
  rcases pointsAt_of_referenceProblem? hreference with hc | ⟨u, hu, hproblem⟩
  · rw [hscalar] at hc
    cases hc
  · refine ⟨u, hu.mem, hu.name_eq, fun henum => ?_⟩
    rw [← hrelation]
    exact (relationProblem?_enum henum hproblem).1

/-- A document with a misplaced directive is not accepted. -/
theorem not_isMisplaced (hcarries : CarriesRelation document d directive) : ¬IsMisplaced document d directive := by
  obtain ⟨hscalar, t, ht, hname, hnone⟩ := exists_target_of_carriesRelation h hcarries
  rintro (hc | ⟨henum, hnamed⟩)
  · rw [hscalar] at hc
    cases hc
  · exact hnamed (hnone ((declaresEnum_iff h ht).mp (hname ▸ henum)))

theorem relationsOnObjects_iff : RelationsOnObjects document types ↔
    ∀ d directive, CarriesRelation document d directive → directive.argument? "name" = none →
      ¬DeclaresEnum document d.type.base.text := by
  constructor
  · intro hobjects d directive hcarries _ henum
    obtain ⟨t, ht, hname, hobject⟩ := hobjects d directive hcarries
    rw [← hname, declaresEnum_iff h ht, hobject] at henum
    cases henum
  · intro hnone d directive hcarries
    obtain ⟨_, t, ht, hname, hnamed⟩ := exists_target_of_carriesRelation h hcarries
    refine ⟨t, ht, hname, ?_⟩
    by_contra henum
    rw [Bool.not_eq_false] at henum
    exact hnone d directive hcarries (hnamed henum) (hname ▸ (declaresEnum_iff h ht).mpr henum)

end Accepted

/-! ## Main result -/

/--
A document is refused where `@relation` stands on a scalar, or names a relation on an enum.

All fields with the directive that are accepted point at a model or an embedded type exactly where no directive that
names nothing is on an enum: there the field is read as if the directive were not written.
-/
theorem relationDirective_iff (database : Database) {source : List Char} {document : Document}
    (hdocument : Document.parse source = .ok document) :
    (∀ d directive, CarriesRelation document d directive → IsMisplaced document d directive →
      ∃ e, parse database source = .error e) ∧
    (∀ types, parse database source = .ok types →
      (RelationsOnObjects document types ↔
        ∀ d directive, CarriesRelation document d directive → directive.argument? "name" = none →
          ¬DeclaresEnum document d.type.base.text)) ∧
    ∀ type d directive, Scalar.isScalar d.type.base.text = false →
      findDirective? d.directives "relation" = some directive → directive.argument? "name" = none →
        declareField database type (dropRelation d) = declareField database type d := by
  have hparse : parse database source = ofDocument database document := by rw [parse, hdocument]
  rw [hparse]
  refine ⟨fun d directive hcarries hmisplaced => ?_, fun types htypes => relationsOnObjects_iff htypes,
    fun type d directive => declareField_dropRelation type⟩
  cases hread : ofDocument database document with
  | ok types => exact absurd hmisplaced (not_isMisplaced hread hcarries)
  | error e => exact ⟨e, rfl⟩

/-- Relations with and without a name, and an enum with a directive whose name is null. -/
def letterSource : List Char :=
  "type User { id: ID! letters: [Letter!]! @relation(name: Writes) mood: Mood @relation(name: null) } ".toList ++
    "type Letter { author: User @relation(name: Writes) answer: Letter @relation } enum Mood { GOOD }".toList

theorem relationDirective_letters : ∃ document types, Document.parse letterSource = .ok document ∧
    parse .relational letterSource = .ok types ∧
    (∀ d directive, CarriesRelation document d directive → IsMisplaced document d directive →
      ∃ e, parse .relational letterSource = .error e) ∧
    (RelationsOnObjects document types ↔
      ∀ d directive, CarriesRelation document d directive → directive.argument? "name" = none →
        ¬DeclaresEnum document d.type.base.text) := by
  obtain ⟨types, h⟩ : ∃ types, parse .relational letterSource = .ok types := exists_eq_ok (by decide +kernel)
  obtain ⟨document, hdocument, _⟩ := parse_eq_ok_iff.mp h
  obtain ⟨hrefused, haccepted, _⟩ := relationDirective_iff .relational hdocument
  exact ⟨document, types, hdocument, h, hrefused, haccepted types h⟩

/-- A type whose only field points at an enum. -/
def moody : ModelType where
  name := "A"
  fields := [{ name := "k", typeName := "K" }]

/-- An enum of one value. -/
def moods : ModelType where
  name := "K"
  isEnum := true
  values := ["X"]

/-- A directive that names nothing is accepted on an enum. -/
theorem relation_accepted_on_enum : ∃ document,
    Document.parse "type A { k: K @relation } enum K { X }".toList = .ok document ∧
    parse .relational "type A { k: K @relation } enum K { X }".toList = .ok [moody, moods] ∧
    ¬RelationsOnObjects document [moody, moods] := by
  refine ⟨_, rfl, rfl, fun hobjects => ?_⟩
  obtain ⟨t, ht, hname, hobject⟩ := hobjects _ _ ⟨⟨_, List.mem_cons_self, List.mem_cons_self⟩, rfl⟩
  rcases List.mem_cons.mp ht with rfl | ht
  · exact absurd hname (by decide)
  · rw [List.mem_singleton.mp ht] at hobject
    cases hobject

end OpenCrud.Datamodel
