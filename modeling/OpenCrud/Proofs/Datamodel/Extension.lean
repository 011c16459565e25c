import OpenCrud.Proofs.Datamodel.Accepted
import OpenCrud.Proofs.Datamodel.Declared
import OpenCrud.Proofs.Datamodel.Places

/-!
# Larger datamodels

A datamodel with more definitions has the types of the smaller one as they are. Each definition declares its type
by itself, and a field of the smaller datamodel points at a type of the smaller datamodel, so that it points at
the same type in the larger one and has the same link. Main result: `subset_of_ofDocument`.
-/

namespace OpenCrud.Datamodel

open Sdl

variable {database : Database} {document document' : Document} {types types' : List ModelType}

/-- What a field points at is the same among more types. -/
theorem find?_typeName_of_subset (hsubset : types ⊆ types') (hnodup : (types'.map (·.name)).Nodup)
    (hscalar : ∀ t ∈ types', Scalar.isScalar t.name = false) {f : ModelField}
    (hf : referenceProblem? types f = none) :
    types'.find? (·.name = f.typeName) = types.find? (·.name = f.typeName) := by
  unfold referenceProblem? at hf
  split at hf
  · rename_i hname
    -- A scalar is no type of either datamodel.
    have hnone : ∀ us ⊆ types', us.find? (fun t => t.name = f.typeName) = none := by
      intro us hus
      refine List.find?_eq_none.mpr fun t ht hc => ?_
      rw [← of_decide_eq_true hc, hscalar t (hus ht)] at hname
      cases hname
    rw [hnone types' (List.Subset.refl _), hnone types hsubset]
  · split at hf
    · cases hf
    · rename_i t hfind
      have hname : t.name = f.typeName := by simpa using List.find?_some hfind
      rw [hfind, ← hname]
      exact find?_name_of_mem hnodup (hsubset (List.mem_of_find?_eq_some hfind))

theorem linkType_of_subset (h : Compatible types) (h' : Compatible types') (hsubset : types ⊆ types')
    {t : ModelType} (ht : t ∈ types) : linkType types' t = linkType types t := by
  have hfields : t.fields.map (fun f => { f with relatedField := backRelation? types' t f }) =
      t.fields.map fun f => { f with relatedField := backRelation? types t f } := by
    refine List.map_congr_left fun f hf => ?_
    have hfind := find?_typeName_of_subset hsubset h'.nodup_names h'.not_scalar (h.reference t ht f hf)
    simp only [backRelation?, hfind]
  exact congrArg (fun fields => { t with fields := fields }) hfields

/-! ## Main result -/

/-- The types of a document are types of every accepted document with its definitions, in whatever order and with
whatever others, wherever they stand. -/
theorem subset_of_ofDocument (h : ofDocument database document = .ok types)
    (h' : ofDocument database document' = .ok types')
    (hsubset : document.map (·.unplaced) ⊆ document'.map (·.unplaced)) : types ⊆ types' := by
  obtain ⟨declared, hdeclared, hcompatible, rfl⟩ := ofDocument_eq_ok_iff.mp h
  obtain ⟨declared', hdeclared', hcompatible', rfl⟩ := ofDocument_eq_ok_iff.mp h'
  have hdeclares : declared ⊆ declared' := by
    intro t ht
    -- From a type to its definition, to the same definition of the larger document, and back to its type.
    obtain ⟨d, hd, hdt⟩ := exists_of_forall₂ (mapM_eq_ok_iff_forall₂.mp hdeclared) ht
    obtain ⟨d', hd', hsame⟩ := List.mem_map.mp (hsubset (List.mem_map_of_mem hd))
    obtain ⟨t', ht', hdt'⟩ := exists_of_forall₂ (mapM_eq_ok_iff_forall₂.mp hdeclared').flip hd'
    rw [← declareType_unplaced, hsame, declareType_unplaced, hdt] at hdt'
    exact Except.ok.inj hdt' ▸ ht'
  intro t ht
  obtain ⟨t₀, ht₀, rfl⟩ := List.mem_map.mp ht
  have hlink : linkType declared' t₀ ∈ linkRelations declared' := List.mem_map_of_mem (hdeclares ht₀)
  rwa [linkType_of_subset hcompatible hcompatible' hdeclares ht₀] at hlink

end OpenCrud.Datamodel
