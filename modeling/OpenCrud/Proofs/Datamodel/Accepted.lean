import Mathlib.Data.List.Forall2
import OpenCrud.Proofs.Datamodel.Graph

/-!
# Which documents are accepted

Reading a document is a sequence of passes with what they have seen so far. What they accept can be said without
an order: each definition declares a type by itself, and the declared types fit together (`Compatible`). Main
statement: `ofDocument_eq_ok_iff`.
-/

namespace OpenCrud.Datamodel

open OpenCrud.Sdl

variable {database : Database} {document : Document} {types : List ModelType}

/-! ## Types that fit together -/

/-- What is asked of the declared types of a datamodel together. -/
structure Compatible (types : List ModelType) : Prop where
  nodup_names : (types.map (·.name)).Nodup
  not_scalar : ∀ t ∈ types, Scalar.isScalar t.name = false
  not_reserved : ∀ t ∈ types, t.name ∉ reservedTypeNames
  not_generated : ∀ t ∈ types, ∀ u ∈ types, u.isEnum = false → t.name ∉ generatedNames u.name
  /-- Every root field has one owner. -/
  owner_eq : ∀ a ∈ claims types, ∀ b ∈ claims types,
    a.root = b.root → a.field = b.field → a.owner = b.owner
  reference : ∀ t ∈ types, ∀ f ∈ t.fields, referenceProblem? types f = none

/-! ## The passes, one by one -/

theorem checkTypeName_eq_ok_iff {seen : List String} {name : String} :
    checkTypeName seen name = .ok () ↔
      name ∉ seen ∧ Scalar.isScalar name = false ∧ name ∉ reservedTypeNames := by
  refine ⟨checkTypeName_ok, fun ⟨hseen, hscalar, hreserved⟩ => ?_⟩
  simp only [checkTypeName, failType, error_bind, ite_error_eq_ok_iff]
  exact ⟨by simpa using hseen, by simp [hscalar], by simpa using hreserved, rfl⟩

theorem declareTypes_eq_ok_iff {seen : List String} :
    declareTypes database seen document = .ok types ↔
      document.mapM (declareType database) = .ok types ∧ (types.map (·.name)).Nodup ∧
        ∀ t ∈ types, t.name ∉ seen ∧ Scalar.isScalar t.name = false ∧ t.name ∉ reservedTypeNames := by
  -- The name of each type is seen by the later ones: so the names are distinct, and none was seen before.
  induction document generalizing seen types with
  | nil =>
    constructor
    · rintro ⟨⟩
      exact ⟨rfl, List.nodup_nil, List.forall_mem_nil _⟩
    · rintro ⟨⟨⟩, _⟩
      rfl
  | cons d ds ih =>
    simp only [declareTypes, List.mapM_cons, bind_eq_ok_iff, ih]
    constructor
    · rintro ⟨t, ht, _, hname, later, ⟨hlater, hnodup, hall⟩, ⟨⟩⟩
      refine ⟨⟨t, ht, later, hlater, rfl⟩, ?_, List.forall_mem_cons.mpr ⟨checkTypeName_ok hname, ?_⟩⟩
      · rw [List.map_cons, List.nodup_cons, List.mem_map]
        refine ⟨?_, hnodup⟩
        rintro ⟨u, hu, hut⟩
        exact (hall u hu).1 (hut ▸ List.mem_cons_self)
      · exact fun u hu => ⟨fun hc => (hall u hu).1 (List.mem_cons_of_mem _ hc), (hall u hu).2⟩
    · rintro ⟨⟨t, ht, later, hlater, ⟨⟩⟩, hnodup, hall⟩
      rw [List.map_cons, List.nodup_cons] at hnodup
      obtain ⟨hfirst, hrest⟩ := List.forall_mem_cons.mp hall
      refine ⟨t, ht, (), checkTypeName_eq_ok_iff.mpr hfirst, later, ⟨hlater, hnodup.2, fun u hu => ?_⟩, rfl⟩
      refine ⟨fun hc => ?_, (hrest u hu).2⟩
      rcases List.mem_cons.mp hc with hname | hc
      · exact hnodup.1 (hname ▸ List.mem_map_of_mem hu)
      · exact (hrest u hu).1 hc

theorem checkGeneratedNames_eq_ok_iff : checkGeneratedNames types = .ok () ↔
    ∀ t ∈ types, ∀ u ∈ types, u.isEnum = false → t.name ∉ generatedNames u.name := by
  refine ⟨fun h t ht u hu => checkGeneratedNames_ok h ht hu, fun h => forM_eq_ok_iff.mpr fun t ht => ?_⟩
  have hnone : generatedOwner? types t.name = none := by
    simp only [generatedOwner?, Option.map_eq_none_iff, List.find?_eq_none, List.mem_reverse, List.mem_filter]
    rintro u ⟨hu, henum⟩
    simpa using h t ht u hu (by simpa using henum)
  rw [hnone]
  rfl

/-- A claim that agrees with all claims has no earlier one against it. -/
theorem checkClaims_eq_ok {earlier later : List Claim} (h : ∀ a ∈ later, ∀ b ∈ earlier ++ later,
    a.root = b.root → a.field = b.field → a.owner = b.owner) : checkClaims earlier later = .ok () := by
  induction later generalizing earlier with
  | nil => rfl
  | cons c cs ih =>
    have hnone : (earlier.find? fun e => e.root = c.root && e.field = c.field && e.owner ≠ c.owner) = none := by
      refine List.find?_eq_none.mpr fun e he hc => ?_
      simp only [Bool.and_eq_true, decide_eq_true_eq] at hc
      obtain ⟨⟨hroot, hfield⟩, howner⟩ := hc
      exact howner (h c List.mem_cons_self e (List.mem_append_left _ he) hroot.symm hfield.symm).symm
    unfold checkClaims
    rw [hnone]
    refine ih fun a ha b hb => h a (List.mem_cons_of_mem _ ha) b ?_
    simp only [List.mem_append, List.mem_cons] at hb ⊢
    rw [or_left_comm, ← or_assoc]
    exact hb

theorem checkRootFields_eq_ok_iff : checkRootFields types = .ok () ↔
    ∀ a ∈ claims types, ∀ b ∈ claims types, a.root = b.root → a.field = b.field → a.owner = b.owner :=
  ⟨fun h a ha b hb => checkClaims_ok h a ha b (List.mem_append_right _ hb),
    fun h => checkClaims_eq_ok fun a ha b hb => h a ha b (by simpa using hb)⟩

theorem checkReferences_eq_ok_iff : checkReferences types = .ok () ↔
    ∀ t ∈ types, ∀ f ∈ t.fields, referenceProblem? types f = none := by
  refine ⟨fun h t ht f hf => checkReferences_ok h ht hf, fun h => ?_⟩
  refine forM_eq_ok_iff.mpr fun t ht => forM_eq_ok_iff.mpr fun f hf => ?_
  rw [h t ht f hf]
  rfl

/-! ## Main statement -/

/-- A document is accepted where each definition declares a type and the declared types fit together; what is
read are the declared types with their links. -/
theorem ofDocument_eq_ok_iff : ofDocument database document = .ok types ↔
    ∃ declared, document.mapM (declareType database) = .ok declared ∧ Compatible declared ∧
      linkRelations declared = types := by
  simp only [ofDocument, bind_eq_ok_iff]
  constructor
  · rintro ⟨declared, hdeclared, _, hnames, _, hclaims, _, hreferences, ⟨⟩⟩
    obtain ⟨hdeclared, hnodup, hall⟩ := declareTypes_eq_ok_iff.mp hdeclared
    refine ⟨declared, hdeclared, ?_, rfl⟩
    exact {
      nodup_names := hnodup
      not_scalar := fun t ht => (hall t ht).2.1
      not_reserved := fun t ht => (hall t ht).2.2
      not_generated := checkGeneratedNames_eq_ok_iff.mp hnames
      owner_eq := checkRootFields_eq_ok_iff.mp hclaims
      reference := checkReferences_eq_ok_iff.mp hreferences }
  · rintro ⟨declared, hdeclared, hcompatible, rfl⟩
    refine ⟨declared, declareTypes_eq_ok_iff.mpr ⟨hdeclared, hcompatible.nodup_names, fun t ht => ?_⟩,
      (), checkGeneratedNames_eq_ok_iff.mpr hcompatible.not_generated,
      (), checkRootFields_eq_ok_iff.mpr hcompatible.owner_eq,
      (), checkReferences_eq_ok_iff.mpr hcompatible.reference, rfl⟩
    exact ⟨List.not_mem_nil, hcompatible.not_scalar t ht, hcompatible.not_reserved t ht⟩

end OpenCrud.Datamodel
