import OpenCrud.Proofs.Client.SourcePieces

/-!
# Types that a client declares

A client declares the types of a schema but for those that are hidden and the root types. For an accepted datamodel
these are types that are reached, each under the name of its handle (`exists_declaredType`).
-/

namespace OpenCrud.Client

open Datamodel Generate

/-! ## Names of a type -/

/-- A derived name belongs to a node, or to what an identifier goes in or comes out as. -/
theorem mem_derivedNames {u : NamedType String} {n : String} (hn : n ∈ derivedNames u) :
    n = nodeName u.name ∨ u.name = "ID" ∧ n ∈ ["ID_Input", "ID_Output"] := by
  unfold derivedNames at hn
  split at hn
  · exact Or.inl (List.mem_singleton.mp hn)
  · exact Or.inl (List.mem_singleton.mp hn)
  · split at hn
    · exact Or.inr ⟨‹_›, hn⟩
    · cases hn
  · cases hn

theorem mem_plainNames {u : NamedType String} {n : String} (hn : n ∈ plainNames u) :
    n = u.name ∧ Category.of u ≠ .interface := by
  obtain ⟨name, description, body⟩ := u
  cases body with
  | interface => cases hn
  | scalar =>
    dsimp only [plainNames] at hn
    split at hn
    · cases hn
    · exact ⟨List.mem_singleton.mp hn, nofun⟩
  | _ => exact ⟨List.mem_singleton.mp hn, nofun⟩

theorem mem_plainNames_of_category {u : NamedType String}
    (hscalar : Category.of u = .scalar → u.name ≠ Scalar.id.name) (hinterface : Category.of u ≠ .interface) :
    u.name ∈ plainNames u := by
  obtain ⟨name, description, body⟩ := u
  cases body with
  | scalar =>
    dsimp only [plainNames]
    rw [if_neg (hscalar rfl)]
    exact List.mem_singleton_self _
  | interface => exact absurd rfl hinterface
  | _ => exact List.mem_singleton_self _

theorem nodeName_mem_derivedNames {u : NamedType String}
    (hnode : Category.of u = .object ∨ Category.of u = .interface) : nodeName u.name ∈ derivedNames u := by
  obtain ⟨name, description, body⟩ := u
  cases body with
  | object | interface => exact List.mem_singleton_self _
  | _ => rcases hnode with hnode | hnode <;> cases hnode

theorem derivedNames_id {u : NamedType String} (hscalar : Category.of u = .scalar) (hname : u.name = Scalar.id.name) :
    derivedNames u = ["ID_Input", "ID_Output"] := by
  obtain ⟨name, description, body⟩ := u
  cases body with
  | scalar => exact if_pos hname
  | _ => cases hscalar

theorem nodeName_inj {a b : String} (h : nodeName a = nodeName b) : a = b := (String.append_left_inj _).mp h

theorem suffix_nodeName (a : String) : "Node".toList <:+ (nodeName a).toList := by
  rw [nodeName, String.toList_append]
  exact List.suffix_append _ _

/-! ## Declared types -/

/-- Whether a name is hidden shows in its first part, where the second one does not begin with an underscore. -/
theorem isHiddenName_append {a b : String} (ha : a ≠ "") (hb : b.toList.head? ≠ some '_') :
    isHiddenName (a ++ b) = isHiddenName a := by
  have hlist : a.toList ≠ [] := fun h => ha (String.toList_eq_nil_iff.mp h)
  unfold isHiddenName
  rw [String.toList_append, show "__".toList = ['_', '_'] from rfl]
  match h : a.toList with
  | [] => exact absurd h hlist
  | [c] =>
    cases hcs : b.toList with
    | nil => rfl
    | cons d ds =>
      rw [hcs] at hb
      have hd : ('_' == d) = false := by
        rw [beq_eq_false_iff_ne]
        rintro rfl
        exact hb rfl
      simp [List.isPrefixOf, hd]
  | c :: d :: cs => rfl

theorem isHiddenName_nodeName {a : String} (ha : a ≠ "") : isHiddenName (nodeName a) = isHiddenName a :=
  isHiddenName_append ha (by decide)

theorem mem_declaredTypes {s : Schema} {u : NamedType String} : u ∈ declaredTypes s ↔
    u ∈ s.types ∧ isHiddenName u.name = false ∧ u.name ∉ s.roots.map Prod.snd := by
  have hall : ∀ category : Category, category ∈ Category.all := by
    intro category
    cases category <;> decide
  simp only [declaredTypes, List.mem_flatMap, List.mem_filter, decide_eq_true_eq, Bool.and_eq_true,
    Bool.not_eq_true', List.contains_eq_mem, decide_eq_false_iff_not]
  exact ⟨fun ⟨_, _, hu, _⟩ => hu, fun hu => ⟨_, hall _, hu, rfl⟩⟩

theorem nodup_declaredTypes {s : Schema} (h : s.types.Nodup) : (declaredTypes s).Nodup := by
  unfold declaredTypes
  refine List.nodup_flatMap.mpr ⟨fun category _ => (h.filter _).filter _, ?_⟩
  have hcategories : Category.all.Pairwise (· ≠ ·) := by decide
  refine hcategories.imp fun {a b} hne u ha hb => hne ?_
  have ha := (List.mem_filter.mp ha).2
  have hb := (List.mem_filter.mp hb).2
  exact (of_decide_eq_true ha).symm.trans (of_decide_eq_true hb)

section Handles

variable {g : TypeGraph} (h : WellFormed g.types) {s : Schema} (hs : Assembled g s)

include h hs

/-- Every type of a schema is made from a handle of its name and category. -/
theorem exists_handle {u : NamedType String} (hu : u ∈ s.types) :
    ∃ x : Handle, x.Valid g ∧ x.name = u.name ∧ Category.of u = x.category := by
  obtain ⟨x, hx, d, hd, rfl⟩ := (hs.types u).mp hu
  obtain ⟨d', hd', hname, _⟩ := hs.exists_define h hx
  obtain rfl := Except.ok.inj (hd.symm.trans hd')
  exact ⟨x, valid_of_reachedFrom h valid_schemaRoots hx, hname.symm,
    (category_map _ _).trans (category_of_define_handle hd)⟩

theorem name_ne_empty {u : NamedType String} (hu : u ∈ s.types) : u.name ≠ "" := by
  obtain ⟨x, hx, hname, _⟩ := exists_handle h hs hu
  intro hempty
  have hisName := hx.isName_name h
  rw [hname, hempty] at hisName
  cases hisName

/-- Derived names show, as the names do that they are derived from. -/
theorem isHiddenName_derived {u : NamedType String} (hu : u ∈ declaredTypes s) {n : String}
    (hn : n ∈ derivedNames u) : isHiddenName n = false := by
  obtain ⟨hmem, hvisible, _⟩ := mem_declaredTypes.mp hu
  rcases mem_derivedNames hn with rfl | ⟨_, hid⟩
  · rw [isHiddenName_nodeName (name_ne_empty h hs hmem), hvisible]
  · have hfixed : ∀ n ∈ ["ID_Input", "ID_Output"], isHiddenName n = false := by decide
    exact hfixed n hid

omit hs in
theorem name_not_mem_roots {t : ModelType} (ht : t ∈ g.types) : t.name ∉ ["Query", "Mutation"] := by
  intro hroot
  have hreserved : ∀ n ∈ ["Query", "Mutation"], n ∈ reservedTypeNames := by decide
  exact (h.type t ht).not_reserved (hreserved _ hroot)

omit h in
theorem mem_roots {name : String} (hname : name ∈ s.roots.map Prod.snd) :
    name = "Query" ∨ name = "Mutation" := by
  have hroot : ∀ {k : Kind} {n : String}, n ∈ rootName g k → n = (Request.shared k).typeName := by
    intro k n hn
    unfold rootName at hn
    split at hn
    · cases hn
    · exact (Option.some.inj hn).symm
  obtain ⟨⟨_, root⟩, hpair, rfl⟩ := List.mem_map.mp hname
  obtain ⟨⟨_, option⟩, hoption, hmap⟩ := List.mem_filterMap.mp hpair
  obtain ⟨_, hsome, heq⟩ := Option.map_eq_some_iff.mp hmap
  cases heq
  simp only [List.mem_cons, Prod.mk.injEq, List.not_mem_nil, or_false] at hoption
  rcases hoption with ⟨_, rfl⟩ | ⟨_, rfl⟩ | ⟨_, rfl⟩
  · exact Or.inl (hroot (hs.query ▸ hsome))
  · exact Or.inr (hroot (hs.mutation ▸ hsome))
  · rw [hs.subscription] at hsome
    cases hsome

/-- What is made of a handle is declared, unless it is hidden or a root type. -/
theorem mem_declaredTypes_of_define {x : Handle} (hx : x.ReachedFrom g (schemaRoots g))
    (hvisible : isHiddenName x.name = false) (hroot : x.name ∉ ["Query", "Mutation"]) {d : NamedType Handle}
    (hd : define g (fresh g) x = .ok d) : d.map Handle.name ∈ declaredTypes s := by
  obtain ⟨d', hd', hname, _⟩ := hs.exists_define h hx
  obtain rfl := Except.ok.inj (hd.symm.trans hd')
  have hmem : d.map Handle.name ∈ s.types := (hs.types _).mpr ⟨x, hx, d, hd, rfl⟩
  have hown : (d.map Handle.name).name = x.name := hname
  refine mem_declaredTypes.mpr ⟨hmem, hown ▸ hvisible, fun hc => hroot ?_⟩
  rw [hown] at hc
  rcases mem_roots hs hc with hquery | hmutation
  · exact hquery ▸ List.mem_cons_self
  · exact hmutation ▸ List.mem_cons_of_mem _ List.mem_cons_self

/-- What is reached is declared under its name and in its category. -/
theorem exists_declaredType {x : Handle} (hx : x.ReachedFrom g (schemaRoots g))
    (hvisible : isHiddenName x.name = false) (hroot : x.name ∉ ["Query", "Mutation"]) :
    ∃ u ∈ declaredTypes s, u.name = x.name ∧ Category.of u = x.category := by
  obtain ⟨d, hd, hname, _⟩ := hs.exists_define h hx
  exact ⟨d.map Handle.name, mem_declaredTypes_of_define h hs hx hvisible hroot hd, hname,
    (category_map _ _).trans (category_of_define_handle hd)⟩

end Handles

end OpenCrud.Client
