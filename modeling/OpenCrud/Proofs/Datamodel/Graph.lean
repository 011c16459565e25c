import Mathlib.Data.List.Nodup
import OpenCrud.Generate.Modifier
import OpenCrud.Proofs.Datamodel.WellFormed

/-!
# The graph of an accepted datamodel

In the graph of a well-formed datamodel every type is found under its name, and every field has a target.
-/

namespace OpenCrud

open Datamodel Generate

/-! ## Types by name -/

/-- What has a name of its own is found under it. -/
theorem find?_name_of_mem {α : Type} {name : α → String} {l : List α} (h : (l.map name).Nodup) {a : α}
    (ha : a ∈ l) : l.find? (fun b => name b = name a) = some a := by
  cases hfind : l.find? fun b => name b = name a with
  | none =>
    have hnone := List.find?_eq_none.mp hfind a ha
    simp at hnone
  | some b =>
    have hname : name b = name a := by simpa using List.find?_some hfind
    rw [List.inj_on_of_nodup_map h (List.mem_of_find?_eq_some hfind) ha hname]

namespace TypeGraph

theorem put_of_not_mem {t : ModelType} {us : List ModelType} (h : t.name ∉ us.map (·.name)) :
    put t us = us ++ [t] := by
  induction us with
  | nil => rfl
  | cons u us ih =>
    simp only [List.map_cons, List.mem_cons, not_or] at h
    unfold put
    rw [if_neg (Ne.symm h.1), ih h.2]
    rfl

theorem foldl_put (ts us : List ModelType) (h : ((us ++ ts).map (·.name)).Nodup) :
    ts.foldl (fun placed t => put t placed) us = us ++ ts := by
  induction ts generalizing us with
  | nil => simp
  | cons t ts ih =>
    have hsplit : us ++ t :: ts = us ++ [t] ++ ts := by simp
    have hmem : t.name ∉ us.map (·.name) := by
      rw [List.map_append, List.nodup_append] at h
      intro hc
      exact h.2.2 _ hc _ (by simp) rfl
    rw [List.foldl_cons, put_of_not_mem hmem, ih (us ++ [t]) (hsplit ▸ h), hsplit]

/-- Types of different names are all kept, in their order. -/
theorem types_ofTypes {types : List ModelType} (h : (types.map (·.name)).Nodup) :
    (ofTypes types).types = types := foldl_put types [] h

theorem models_ofTypes {types : List ModelType} (h : (types.map (·.name)).Nodup) :
    (ofTypes types).models = types.filter (·.isModel) := by
  rw [models, types_ofTypes h]

theorem mem_of_find? {g : TypeGraph} {name : String} {t : ModelType} (h : g.find? name = some t) :
    t ∈ g.types ∧ t.name = name :=
  ⟨List.mem_of_find?_eq_some h, by simpa using List.find?_some h⟩

end TypeGraph

theorem ModelType.isEnum_of_isModel {t : ModelType} (h : t.isModel = true) : t.isEnum = false := by
  simp only [ModelType.isModel, Bool.and_eq_true, Bool.not_eq_true'] at h
  exact h.1

/-- The graph of a well-formed datamodel has the types of the datamodel. -/
theorem Datamodel.WellFormed.ofTypes {types : List ModelType} (h : WellFormed types) :
    WellFormed (TypeGraph.ofTypes types).types := by
  rw [TypeGraph.types_ofTypes h.nodup_names]
  exact h

namespace Generate

variable {g : TypeGraph} (h : WellFormed g.types)

include h

theorem find?_of_mem {t : ModelType} (ht : t ∈ g.types) : g.find? t.name = some t :=
  find?_name_of_mem h.nodup_names ht

theorem find?_of_isScalar {name : String} (hs : Scalar.isScalar name = true) :
    g.find? name = none := by
  cases hfind : g.find? name with
  | none => rfl
  | some t =>
    obtain ⟨ht, rfl⟩ := TypeGraph.mem_of_find? hfind
    rw [(h.type t ht).not_scalar] at hs
    cases hs

/-! ## Targets of fields -/

/-- Every field of the datamodel points at a scalar or at a type of the datamodel. -/
theorem target_of_mem {t : ModelType} (ht : t ∈ g.types) {f : ModelField} (hf : f ∈ t.fields) :
    (∃ s : Scalar, f.typeName = s.name ∧ target g f = .ok (.scalar s)) ∨
      (∃ u ∈ g.types, f.typeName = u.name ∧ u.isEnum = true ∧ target g f = .ok (.enum u)) ∨
      ∃ u ∈ g.types, f.typeName = u.name ∧ u.isEnum = false ∧ f.isUnique = false ∧
        target g f = .ok (.relation u) := by
  have href := h.reference t ht f hf
  -- The parser has checked the reference, so it is a scalar or the name of a declared type.
  unfold referenceProblem? at href
  split at href
  · rename_i hscalar
    obtain ⟨s, hs⟩ := Option.isSome_iff_exists.mp hscalar
    refine Or.inl ⟨s, ?_, ?_⟩
    · have hname := List.find?_some hs
      exact (by simpa using hname : s.name = f.typeName).symm
    · simp only [target, TypeGraph.relatedType?, find?_of_isScalar h hscalar, hs]
  · split at href
    · cases href
    · rename_i u hfind
      have hfind' : g.find? f.typeName = some u := hfind
      obtain ⟨hu, hname⟩ := TypeGraph.mem_of_find? hfind'
      refine Or.inr ?_
      cases henum : u.isEnum with
      | true =>
        refine Or.inl ⟨u, hu, hname.symm, henum, ?_⟩
        simp only [target, TypeGraph.relatedType?, hfind', henum, if_true]
      | false =>
        refine Or.inr ⟨u, hu, hname.symm, henum, ?_, ?_⟩
        · by_cases hdefault : f.defaultValue.isSome = true
          · simp [relationProblem?, henum, hdefault] at href
          · simpa [relationProblem?, henum, hdefault] using href
        · simp [target, TypeGraph.relatedType?, hfind', henum]

/-- Whether a field points at a scalar or an enum. -/
def isLeafOf (g : TypeGraph) (f : ModelField) : Bool :=
  match target g f with
  | .ok t => t.isLeaf
  | .error _ => false

omit h in
theorem target_of_isLeafOf {f : ModelField} (hleaf : isLeafOf g f = true) :
    (∃ s, target g f = .ok (.scalar s)) ∨ ∃ u, target g f = .ok (.enum u) := by
  unfold isLeafOf at hleaf
  cases htarget : target g f with
  | error e =>
    rw [htarget] at hleaf
    cases hleaf
  | ok x =>
    cases x with
    | scalar s => exact Or.inl ⟨s, rfl⟩
    | enum u => exact Or.inr ⟨u, rfl⟩
    | relation u =>
      rw [htarget] at hleaf
      cases hleaf

/-- A field that points at a type with fields of its own points at an object of the datamodel. -/
theorem target_of_isLeafOf_eq_false {t : ModelType} (ht : t ∈ g.types) {f : ModelField}
    (hf : f ∈ t.fields) (hleaf : isLeafOf g f = false) :
    ∃ u ∈ g.types, u.isEnum = false ∧ g.relatedType? f = some u ∧ target g f = .ok (.relation u) := by
  unfold isLeafOf at hleaf
  rcases target_of_mem h ht hf with ⟨s, _, htarget⟩ | ⟨u, _, _, _, htarget⟩ |
    ⟨u, hu, hname, henum, _, htarget⟩
  · rw [htarget] at hleaf
    cases hleaf
  · rw [htarget] at hleaf
    cases hleaf
  · refine ⟨u, hu, henum, ?_, htarget⟩
    rw [TypeGraph.relatedType?, hname, find?_of_mem h hu]

theorem isLeafField_of_mem {t : ModelType} (ht : t ∈ g.types) {f : ModelField} (hf : f ∈ t.fields) :
    isLeafField g f = .ok (isLeafOf g f) := by
  unfold isLeafField isLeafOf
  rcases target_of_mem h ht hf with ⟨s, _, hs⟩ | ⟨u, _, _, _, hu⟩ | ⟨u, _, _, _, _, hu⟩
  · rw [hs]; rfl
  · rw [hu]; rfl
  · rw [hu]; rfl

theorem leafFields_of_subset {t : ModelType} (ht : t ∈ g.types) {fs : List ModelField}
    (hfs : fs ⊆ t.fields) : leafFields g fs = .ok (fs.filter (isLeafOf g)) := by
  induction fs with
  | nil => rfl
  | cons f fs ih =>
    rw [List.cons_subset] at hfs
    rw [leafFields, isLeafField_of_mem h ht hfs.1, ih hfs.2, List.filter_cons]
    cases isLeafOf g f <;> rfl

/-- A unique field points at a scalar or an enum. -/
theorem isLeafOf_of_isUnique {t : ModelType} (ht : t ∈ g.types) {f : ModelField} (hf : f ∈ t.fields)
    (hunique : f.isUnique = true) : isLeafOf g f = true := by
  unfold isLeafOf
  rcases target_of_mem h ht hf with ⟨s, _, hs⟩ | ⟨u, _, _, _, hu⟩ | ⟨u, _, _, _, hfalse, _⟩
  · rw [hs]; rfl
  · rw [hu]; rfl
  · rw [hfalse] at hunique
    cases hunique

end Generate

end OpenCrud
