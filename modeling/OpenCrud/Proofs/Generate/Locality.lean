import OpenCrud.Proofs.Datamodel.Extension
import OpenCrud.Proofs.Generate.Answers

/-!
# Types made in a larger datamodel

A type is made from what its request is about and from what the fields of that point at. So it is made in the
same way in every graph in which these are the same, whatever else is there (`TypeGraph.Extends`). Two steps lead
there: the generators look into the graph for nothing else (`build_same`, `body_same`), and what they ask for is about
the same types again, so the answers are the same as well (`fresh_same`). Main result: `define_same`.
-/

namespace OpenCrud

open Datamodel

/-! ## Larger graphs -/

/-- The graph of a datamodel within the graph of a larger one. -/
structure TypeGraph.Extends (g g' : TypeGraph) : Prop where
  small : WellFormed g.types
  large : WellFormed g'.types
  subset : g.types ⊆ g'.types

namespace TypeGraph.Extends

variable {g g' : TypeGraph} (h : g.Extends g')

include h

/-- A type of the smaller graph is found in both, since each graph has one type of a name. -/
theorem find?_name {t : ModelType} (ht : t ∈ g.types) : g'.find? t.name = g.find? t.name := by
  rw [Generate.find?_of_mem h.small ht, Generate.find?_of_mem h.large (h.subset ht)]

/-- The names of scalars are no types in either graph. -/
theorem find?_scalar (s : Scalar) : g'.find? s.name = g.find? s.name := by
  have hscalar : Scalar.isScalar s.name = true := by simp [Scalar.isScalar]
  rw [Generate.find?_of_isScalar h.small hscalar, Generate.find?_of_isScalar h.large hscalar]

/-- A field points at the same type in both graphs: what it refers to is declared in the smaller one. -/
theorem relatedType? {t : ModelType} (ht : t ∈ g.types) {f : ModelField} (hf : f ∈ t.fields) :
    g'.relatedType? f = g.relatedType? f :=
  find?_typeName_of_subset h.subset h.large.nodup_names (fun t ht => (h.large.type t ht).not_scalar)
    (h.small.reference t ht f hf)

theorem mem_models {t : ModelType} (ht : t ∈ g.models) : t ∈ g'.models :=
  List.mem_filter.mpr ⟨h.subset (List.mem_filter.mp ht).1, (List.mem_filter.mp ht).2⟩

end TypeGraph.Extends

namespace Generate

open MonadExcept (ofExcept)

/-! ## Fields that point at the same -/

section Fields

variable {g g' : TypeGraph} {ask : Ask (Except Error)} {f : ModelField}
  (hf : g'.relatedType? f = g.relatedType? f)

include hf

/-- What a field points at is all that the generators look up for it. -/
theorem target_same : target g' f = target g f := by
  rw [target, target, hf]

theorem isLeafField_same : isLeafField g' f = isLeafField g f := by
  rw [isLeafField, isLeafField, target_same hf]

theorem fieldFilters_same : fieldFilters g' ask f = fieldFilters g ask f := by
  simp only [fieldFilters, scalarFilters, relationFilters, manyRelationFilters, oneRelationFilters,
    relatedFilters, assertRelation, isLeafField_same hf, target_same hf, hf]

theorem createField_same : createField g' ask f = createField g ask f := by
  rw [createField, createField, target_same hf]

theorem updateField_same : updateField g' ask f = updateField g ask f := by
  rw [updateField, updateField, target_same hf]

theorem objectField_same : objectField g' ask f = objectField g ask f := by
  rw [objectField, objectField, target_same hf]

end Fields

/-! ## Types whose fields point at the same -/

section Types

variable {g g' : TypeGraph} {ask : Ask (Except Error)} {t : ModelType}

/-- Which fields are scalars and enums is decided field by field. -/
theorem leafFields_same {fs : List ModelField} (hfs : ∀ f ∈ fs, g'.relatedType? f = g.relatedType? f) :
    leafFields g' fs = leafFields g fs := by
  induction fs with
  | nil => rfl
  | cons f fs ih =>
    rw [List.forall_mem_cons] at hfs
    rw [leafFields, leafFields, isLeafField_same hfs.1, ih hfs.2]

variable (ht : ∀ f ∈ t.fields, g'.relatedType? f = g.relatedType? f)

include ht

theorem leafFields_filter_same (p : ModelField → Bool) :
    leafFields g' (t.fields.filter p) = leafFields g (t.fields.filter p) :=
  leafFields_same fun f hf => ht f (List.mem_filter.mp hf).1

theorem orderValues_same : orderValues g' t = orderValues g t := by
  rw [orderValues, orderValues, leafFields_filter_same ht]

theorem wouldBeEmpty_same (r : Request) : wouldBeEmpty g' ask r t = wouldBeEmpty g ask r t := by
  simp only [wouldBeEmpty, uniqueFields, writableLeafFields, writableFields, leafFields_filter_same ht]

theorem inputFields_same (r : Request) : inputFields g' ask r t = inputFields g ask r t := by
  have hwhere : t.fields.mapM (fieldFilters g' ask) = t.fields.mapM (fieldFilters g ask) :=
    mapM_congr fun f hf => fieldFilters_same (ht f hf)
  have hcreate : (writableFields t).mapM (createField g' ask) = (writableFields t).mapM (createField g ask) :=
    mapM_congr fun f hf => createField_same (ht f (List.mem_filter.mp hf).1)
  have hupdate : (writableFields t).mapM (updateField g' ask) = (writableFields t).mapM (updateField g ask) :=
    mapM_congr fun f hf => updateField_same (ht f (List.mem_filter.mp hf).1)
  have hwritable : writableLeafFields g' t = writableLeafFields g t := leafFields_filter_same ht _
  have hunique : uniqueFields g' t = uniqueFields g t := leafFields_filter_same ht _
  simp only [inputFields, whereFields, createFields, updateFields, updateManyMutationFields, whereUniqueFields,
    hwhere, hcreate, hupdate, hwritable, hunique]

theorem objectFields_same : objectFields g' ask t = objectFields g ask t := by
  rw [objectFields, objectFields, mapM_congr fun f hf => objectField_same (ht f hf)]

end Types

/-! ## Requests about the smaller graph -/

/-- A request about nothing that the larger graph adds. -/
def Request.InScope (g g' : TypeGraph) (r : Request) : Prop :=
  r.kind.isShared = true ∨ g'.find? r.subject = g.find? r.subject

section Requests

variable {g g' : TypeGraph} (h : g.Extends g') {ask : Ask (Except Error)} {r : Request}

theorem subject_same (hr : g'.find? r.subject = g.find? r.subject) : subject g' r = subject g r := by
  rw [subject, subject, hr]

include h

/-- What is made from the type of a request is made in the same way from the types of the smaller graph. -/
theorem bind_subject_same {α : Type} {make make' : ModelType → Except Error α}
    (hr : g'.find? r.subject = g.find? r.subject)
    (hmake : ∀ t, (∀ f ∈ t.fields, g'.relatedType? f = g.relatedType? f) → make' t = make t) :
    subject g' r >>= make' = subject g r >>= make := by
  rw [subject_same hr]
  cases hsubject : subject g r with
  | error e => rfl
  | ok t =>
    have ht := (TypeGraph.mem_of_find? (Correspondence.Within.find?_of_subject hsubject).1).1
    exact hmake t fun f hf => h.relatedType? ht hf

/-- The values of an enum, and those to order by, are told by its own type. -/
theorem enumValues_same (hr : g'.find? r.subject = g.find? r.subject) : enumValues g' r = enumValues g r := by
  unfold enumValues
  refine bind_subject_same h hr fun t ht => ?_
  rw [orderValues_same ht]

/-- An answer looks into the graph for the subject of its request and for what its fields point at. -/
theorem build_same (hr : r.InScope g g') : build g' ask r = build g ask r := by
  have hsubject : r.kind.isShared = false → g'.find? r.subject = g.find? r.subject :=
    fun hk => hr.resolve_left (by simp [hk])
  unfold build
  cases hk : r.kind with
  | scalar => simp only [hsubject (by rw [hk]; rfl)]
  | enum | orderBy => simp only [makeEnum, enumValues_same h (hsubject (by rw [hk]; rfl))]
  | node | pageInfo | query | mutation | batchPayload => rfl
  | object | edge | aggregate | connection => simp only [subject_same (hsubject (by rw [hk]; rfl))]
  | _ =>
    simp only [ofExcept_eq]
    refine bind_subject_same h (hsubject (by rw [hk]; rfl)) fun t ht => ?_
    rw [wouldBeEmpty_same ht]

/-- The root types are left out: they have fields for all models of a graph. -/
theorem outputFields_same (hr : r.InScope g g') (hquery : r.kind ≠ .query) (hmutation : r.kind ≠ .mutation) :
    outputFields g' ask r = outputFields g ask r := by
  unfold outputFields
  cases hk : r.kind with
  | object =>
    simp only [ofExcept_eq]
    exact bind_subject_same h (hr.resolve_left (by simp [hk, Kind.isShared])) fun t ht => objectFields_same ht
  | query => exact absurd hk hquery
  | mutation => exact absurd hk hmutation
  | _ => rfl

omit h in
theorem interfaces_same (hr : r.InScope g g') : interfaces g' ask r = interfaces g ask r := by
  unfold interfaces
  cases hk : r.kind with
  | object => simp only [subject_same (hr.resolve_left (by simp [hk, Kind.isShared]))]
  | _ => rfl

/-- The body of a type is the same in both graphs when the same ways of asking are used. -/
theorem body_same (hr : r.InScope g g') (hquery : r.kind ≠ .query) (hmutation : r.kind ≠ .mutation) :
    body g' ask r = body g ask r := by
  have hsubject : r.kind.isShared = false → g'.find? r.subject = g.find? r.subject :=
    fun hk => hr.resolve_left (by simp [hk])
  have hfields : outputFields g' ask r = outputFields g ask r := outputFields_same h hr hquery hmutation
  have hinterfaces : interfaces g' ask r = interfaces g ask r := interfaces_same hr
  unfold body
  cases hk : r.kind with
  | scalar => rfl
  | enum | orderBy => simp only [enumValues_same h (hsubject (by rw [hk]; rfl))]
  | node | object | pageInfo | batchPayload | edge | aggregate | connection | query | mutation =>
    simp only [hfields, hinterfaces]
  | _ =>
    simp only [ofExcept_eq]
    refine bind_subject_same h (hsubject (by rw [hk]; rfl)) fun t ht => ?_
    rw [inputFields_same ht]

omit h in
theorem description_same (hr : r.InScope g g') : description g' r = description g r := by
  unfold description
  cases hk : r.kind with
  | object => simp only [hr.resolve_left (by simp [hk, Kind.isShared])]
  | _ => rfl

end Requests

/-! ## Answers -/

section Answers

variable {g g' : TypeGraph}

theorem covers_inScope {name : String} (hname : g'.find? name = g.find? name) :
    Covers (Request.InScope g g') name where
  of _ _ _ := .inr hname
  nestedUpdate := .inr hname
  updateOne _ := .inr hname

variable (h : g.Extends g')

include h

/-- What a field of the smaller graph points at is of the smaller graph itself. -/
theorem points_inScope {t : ModelType} (ht : t ∈ g.types) {f : ModelField} (hf : f ∈ t.fields) :
    Points (Request.InScope g g') g f where
  leaf _ := .inr (h.relatedType? ht hf)
  relation u htarget := by
    rcases target_of_mem h.small ht hf with ⟨s, _, hs⟩ | ⟨v, _, _, _, hv⟩ | ⟨v, hv, _, _, _, hrelation⟩
    · cases hs.symm.trans htarget
    · cases hv.symm.trans htarget
    · cases hrelation.symm.trans htarget
      exact covers_inScope (h.find?_name hv)

/-- All that is asked for while a request about the smaller graph is answered is about the smaller graph. -/
theorem supports_inScope {r : Request} (hr : r.InScope g g') : Supports (Request.InScope g g') g r where
  shared _ hk := .inl hk
  long := .inr (h.find?_scalar .long)
  enum _ t hfind _ := .inr (h.find?_name (TypeGraph.mem_of_find? hfind).1)
  self hk := covers_inScope (hr.resolve_left fun hshared => by
    cases hkind : r.kind <;> simp [hkind, Kind.isOfModel, Kind.isShared] at hk hshared)
  fields _ _ hfind _ hf := points_inScope h (TypeGraph.mem_of_find? hfind).1 hf
  models _ ht := covers_inScope (h.find?_name (List.mem_filter.mp ht).1)

/-- Answers of any depth are the same: by induction on the depth, what they ask for is. -/
theorem freshWithin_same (n : Nat) {r : Request} (hr : r.InScope g g') :
    freshWithin g' n r = freshWithin g n r := by
  induction n generalizing r with
  | zero => exact build_same h hr
  | succ n ih =>
    have hasks : (Correspondence.equality fun _ _ _ => rfl).Within (Request.InScope g g') r.kind.rank
        (freshWithin g' n) (freshWithin g n) := ⟨fun r' hr' _ => ih hr'⟩
    calc build g' (freshWithin g' n) r
      -- The same generator, and then the same answers to what it asks.
      _ = build g (freshWithin g' n) r := build_same h hr
      _ = build g (freshWithin g n) r := hasks.build (supports_inScope h hr)

/-- A request about the smaller graph has the same answer in the larger one. -/
theorem fresh_same {r : Request} (hr : r.InScope g g') : fresh g' r = fresh g r := freshWithin_same h 2 hr

/-- The type behind a request about the smaller graph is the same in the larger one. -/
theorem define_made_same {r : Request} (hr : r.InScope g g') (hquery : r.kind ≠ .query)
    (hmutation : r.kind ≠ .mutation) :
    define g' (fresh g') (.made r) = define g (fresh g) (.made r) := by
  have hasks : (Correspondence.equality fun _ _ _ => rfl).Within (Request.InScope g g') 3 (fresh g') (fresh g) :=
    ⟨fun r' hr' _ => fresh_same h hr'⟩
  calc define g' (fresh g') (.made r)
    _ = define g (fresh g') (.made r) := by
      rw [define, define, body_same h hr hquery hmutation, description_same hr]
    _ = define g (fresh g) (.made r) := hasks.define (supports_inScope h hr)

/-- Every type that a schema of the smaller graph can hold is the same in the larger one, the root types apart. -/
theorem define_same {x : Handle} (hx : x.Valid g) (hquery : x ≠ .made (.shared .query))
    (hmutation : x ≠ .made (.shared .mutation)) :
    define g' (fresh g') x = define g (fresh g) x := by
  cases hx with
  | scalar s => rfl
  | shared hk =>
    refine define_made_same h (.inl hk) (fun hkind => hquery ?_) (fun hkind => hmutation ?_)
    · exact congrArg (fun kind => Handle.made (.shared kind)) hkind
    · exact congrArg (fun kind => Handle.made (.shared kind)) hkind
  | enum ht _ => exact define_made_same h (.inr (h.find?_name ht)) nofun nofun
  | object ht _ => exact define_made_same h (.inr (h.find?_name ht)) nofun nofun
  | aggregate ht _ => exact define_made_same h (.inr (h.find?_name ht)) nofun nofun
  | helper ht _ hrow _ _ =>
    have hkinds : ∀ row ∈ endings, row.2.1 ≠ .query ∧ row.2.1 ≠ .mutation := by decide
    obtain ⟨hne, hne'⟩ := hkinds _ hrow
    exact define_made_same h (.inr (h.find?_name ht)) hne hne'

end Answers

end Generate

end OpenCrud
