import Mathlib.Data.List.FinRange
import Mathlib.Logic.Equiv.Fin.Basic
import OpenCrud.Proofs.Datamodel.Accepted
import OpenCrud.Proofs.Datamodel.Places

/-!
# The order of definitions

The types of a datamodel are found by name, so the order of the definitions decides about nothing but the order of
the types: a document in another order is accepted exactly where the document is, and its types are the same types
in that order. Main result: `ofDocument_reorder`.
-/

namespace OpenCrud

/-! ## Lists in another order -/

/-- A list of `n` items in another order: where the permutation points at a place, the item of that place. -/
def reorder {α : Type} {n : Nat} (σ : Equiv.Perm (Fin n)) (l : List α) : List α :=
  (List.finRange n).filterMap fun i => l[(σ i : Nat)]?

example : reorder (Equiv.swap 0 2 : Equiv.Perm (Fin 3)) ['a', 'b', 'c'] = ['c', 'b', 'a'] := by decide

section Reorder

variable {α β : Type} {n : Nat} {l : List α} (σ : Equiv.Perm (Fin n))

/-- Order and entries are independent of each other. -/
theorem reorder_map (f : α → β) : reorder σ (l.map f) = (reorder σ l).map f := by
  simp only [reorder, List.getElem?_map, List.map_filterMap]

theorem reorder_eq_map (h : l.length = n) :
    reorder σ l = (List.finRange n).map fun i => l.get ((σ i).cast h.symm) := by
  subst h
  have hsome : ∀ i : Fin l.length, l[(σ i : Nat)]? = some (l.get (σ i)) := fun i =>
    List.getElem?_eq_getElem (σ i).isLt
  simp only [reorder, hsome, List.filterMap_eq_map', Fin.cast_eq_self]

theorem length_reorder (h : l.length = n) : (reorder σ l).length = n := by
  rw [reorder_eq_map σ h, List.length_map, List.length_finRange]

theorem getElem?_reorder (h : l.length = n) (i : Fin n) : (reorder σ l)[(i : Nat)]? = l[(σ i : Nat)]? := by
  have hi : (σ i : Nat) < l.length := h ▸ (σ i).isLt
  simp [reorder_eq_map σ h, hi]

/-- One order of another one. -/
theorem reorder_reorder (τ : Equiv.Perm (Fin n)) (h : l.length = n) : reorder τ (reorder σ l) = reorder (τ.trans σ) l := by
  unfold reorder
  exact List.filterMap_congr fun i _ => getElem?_reorder σ h (τ i)

theorem reorder_refl (h : l.length = n) : reorder (Equiv.refl (Fin n)) l = l := by
  subst h
  rw [reorder_eq_map _ rfl]
  exact List.map_getElem_finRange l

/-- Reordering neither adds nor drops an entry. -/
theorem perm_reorder (h : l.length = n) : (reorder σ l).Perm l := by
  have hmoved : reorder σ l = ((List.finRange n).map σ).filterMap fun i : Fin n => l[(i : Nat)]? := by
    rw [List.filterMap_map]
    rfl
  have hkept : ((List.finRange n).filterMap fun i : Fin n => l[(i : Nat)]?) = l := reorder_refl h
  rw [hmoved]
  exact ((Equiv.Perm.map_finRange_perm σ).filterMap _).trans (.of_eq hkept)

/-- What goes together item by item goes together in another order. -/
theorem forall₂_reorder {R : α → β → Prop} {l' : List β} (h : List.Forall₂ R l l') :
    List.Forall₂ R (reorder σ l) (reorder σ l') := by
  have hitem : ∀ i : Fin n, Option.Rel R l[(σ i : Nat)]? l'[(σ i : Nat)]? := by
    intro i
    obtain ⟨hlength, hget⟩ := List.forall₂_iff_get.mp h
    by_cases hi : (σ i : Nat) < l.length
    · have hi' : (σ i : Nat) < l'.length := hlength ▸ hi
      have hrel := hget _ hi hi'
      simpa [hi, hi'] using hrel
    · have hi' : ¬(σ i : Nat) < l'.length := hlength ▸ hi
      simp [hi, hi']
  exact List.rel_filterMap (R := Eq) (fun i _ hij => hij ▸ hitem i) (List.forall₂_refl _)

end Reorder

/-! ## Types in another order -/

/-- Where no name comes twice, what is found under a name is what has it. -/
theorem find?_name_eq_some_iff {α : Type} {name : α → String} {l : List α} (h : (l.map name).Nodup) {n : String}
    {a : α} : l.find? (fun a => name a = n) = some a ↔ a ∈ l ∧ name a = n := by
  constructor
  · intro hfind
    exact ⟨List.mem_of_find?_eq_some hfind, by simpa using List.find?_some hfind⟩
  · rintro ⟨ha, rfl⟩
    exact find?_name_of_mem h ha

/-- What has a name of its own is found under it in any order. -/
theorem find?_name_perm {α : Type} {name : α → String} {l l' : List α} (hperm : l.Perm l')
    (h : (l.map name).Nodup) (n : String) :
    l.find? (fun a => name a = n) = l'.find? (fun a => name a = n) := by
  have h' : (l'.map name).Nodup := (hperm.map name).nodup_iff.mp h
  refine Option.ext fun a => ?_
  rw [find?_name_eq_some_iff h, find?_name_eq_some_iff h', hperm.mem_iff]

namespace Datamodel

open Sdl

variable {types types' : List ModelType}

theorem claims_perm (hperm : types.Perm types') : (claims types).Perm (claims types') :=
  (hperm.filter _).flatMap_right _

theorem referenceProblem?_perm (hperm : types.Perm types') (h : (types.map (·.name)).Nodup) (f : ModelField) :
    referenceProblem? types f = referenceProblem? types' f := by
  rw [referenceProblem?, referenceProblem?, find?_name_perm hperm h]

theorem linkType_perm (hperm : types.Perm types') (h : (types.map (·.name)).Nodup) :
    linkType types = linkType types' := by
  funext t
  simp only [linkType, backRelation?, find?_name_perm hperm h]

/-- The checks across types compare every type with every other, in whatever order. -/
theorem Compatible.perm (h : Compatible types) (hperm : types.Perm types') : Compatible types' := by
  have hclaims := claims_perm hperm
  exact {
    nodup_names := (hperm.map _).nodup_iff.mp h.nodup_names
    not_scalar := fun t ht => h.not_scalar t (hperm.mem_iff.mpr ht)
    not_reserved := fun t ht => h.not_reserved t (hperm.mem_iff.mpr ht)
    not_generated := fun t ht u hu => h.not_generated t (hperm.mem_iff.mpr ht) u (hperm.mem_iff.mpr hu)
    owner_eq := fun a ha b hb => h.owner_eq a (hclaims.mem_iff.mpr ha) b (hclaims.mem_iff.mpr hb)
    reference := fun t ht f hf =>
      referenceProblem?_perm hperm h.nodup_names f ▸ h.reference t (hperm.mem_iff.mpr ht) f hf }

/-! ## Main result -/

section Reordered

variable {database : Database} {document : Document} {n : Nat}

/-- Whatever is read in one order is read in any other. -/
theorem ofDocument_reorder_of_eq_ok (hlength : document.length = n) (σ : Equiv.Perm (Fin n))
    (h : ofDocument database document = .ok types) :
    ofDocument database (reorder σ document) = .ok (reorder σ types) := by
  obtain ⟨declared, hdeclared, hcompatible, rfl⟩ := ofDocument_eq_ok_iff.mp h
  have hn : declared.length = n := (length_of_mapM_eq_ok hdeclared).trans hlength
  have hperm : declared.Perm (reorder σ declared) := (perm_reorder σ hn).symm
  refine ofDocument_eq_ok_iff.mpr ⟨reorder σ declared, ?_, hcompatible.perm hperm, ?_⟩
  · exact mapM_eq_ok_iff_forall₂.mpr (forall₂_reorder σ (mapM_eq_ok_iff_forall₂.mp hdeclared))
  · rw [linkRelations_eq, linkRelations_eq, ← linkType_perm hperm hcompatible.nodup_names, reorder_map]

/-- Whether a document is accepted is no matter of order; which problem is reported can be. -/
theorem toOption_ofDocument_reorder (hlength : document.length = n) (σ : Equiv.Perm (Fin n)) :
    (ofDocument database (reorder σ document)).toOption =
      (ofDocument database document).toOption.map (reorder σ) := by
  cases h : ofDocument database document with
  | ok types => rw [ofDocument_reorder_of_eq_ok hlength σ h]; rfl
  | error e =>
    -- What is accepted in the other order is accepted in the first one, since the order can be undone.
    cases h' : ofDocument database (reorder σ document) with
    | error e' => rfl
    | ok types =>
      have hback := ofDocument_reorder_of_eq_ok (length_reorder σ hlength) σ.symm h'
      rw [reorder_reorder _ _ hlength, Equiv.symm_trans_self, reorder_refl hlength, h] at hback
      cases hback

end Reordered

/-- A document with the definitions of another one in another order, wherever they stand in their sources, is
accepted exactly where the other one is. Then its types are those of the other one in that order, with the same
links between their fields. -/
theorem ofDocument_reorder (database : Database) {document document' : Document}
    (σ : Equiv.Perm (Fin document.length))
    (h : document'.map (·.unplaced) = reorder σ (document.map (·.unplaced))) :
    (ofDocument database document').toOption =
      (ofDocument database document).toOption.map (reorder σ) := by
  rw [← ofDocument_unplaced document', h, toOption_ofDocument_reorder (List.length_map _), ofDocument_unplaced]

/-- The enum first, and the mark in another place. -/
theorem ofDocument_reorder_account :
    [tierDefinition, accountDefinition ['@']].map (·.unplaced) =
        reorder (Equiv.swap 0 1 : Equiv.Perm (Fin 2)) ([accountDefinition [], tierDefinition].map (·.unplaced)) ∧
      (ofDocument .document [accountDefinition [], tierDefinition]).isOk = true ∧
      (ofDocument .document [tierDefinition, accountDefinition ['@']]).toOption =
        (ofDocument .document [accountDefinition [], tierDefinition]).toOption.map
          (reorder (Equiv.swap 0 1 : Equiv.Perm (Fin 2))) := by
  have horder : [tierDefinition, accountDefinition ['@']].map (·.unplaced) =
      reorder (Equiv.swap 0 1 : Equiv.Perm (Fin 2))
        ([accountDefinition [], tierDefinition].map (·.unplaced)) := rfl
  refine ⟨horder, by decide +kernel, ?_⟩
  exact @ofDocument_reorder .document [accountDefinition [], tierDefinition] _ (Equiv.swap 0 1) horder

end Datamodel

end OpenCrud
