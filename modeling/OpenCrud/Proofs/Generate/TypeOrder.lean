import OpenCrud.Proofs.Generate.OutputParts
import OpenCrud.Proofs.Schema.Collect
import OpenCrud.Schema.Print

/-!
# The order of a schema's types

A type of a datamodel can be reached from an earlier one on many ways: by fields, arguments and nested inputs. Still
a schema holds the types of its datamodel in their order, and the root types after all of them. Main result:
`ownTypesFirst_of_parse`.

While it is collected what the types of a datamodel reach, each of them waits for its turn. Nothing that they reach
refers to a root type, so the root types are collected last.
-/

namespace OpenCrud.Generate

open Datamodel

/-- That a schema holds the types of a datamodel in their order and then the root types, each once, and that they
are printed in this order. There are root types where there are models. The types by which schemas describe themselves
come after all that is collected. -/
structure OwnTypesFirst (types : List ModelType) (s : Schema) : Prop where
  collected : ∃ refs, Schema.Reach.Collected (define (.ofTypes types) (fresh (.ofTypes types))) (· = .absent)
      (types.map ownType) (rootTypes (.ofTypes types)) refs ∧
    s.allTypes.map (·.name) = refs.map Handle.name ++ introspectionNames
  roots : s.query.toList ++ s.mutation.toList = if types.any (·.isModel) then ["Query", "Mutation"] else []
  nodup : (s.allTypes.map (·.name)).Nodup
  order : (types.map (·.name) ++ (s.query.toList ++ s.mutation.toList)).Sublist (s.allTypes.map (·.name))
  printed : ∃ shown : List (NamedType String),
    s.print = "\n\n".intercalate (s.printRoots?.toList ++ shown.map NamedType.print) ∧
      (types.map (·.name) ++ (s.query.toList ++ s.mutation.toList)).Sublist (shown.map (·.name))

section Order

variable {g : TypeGraph} (h : WellFormed g.types)

theorem map_name_ownTypes : (g.types.map ownType).map Handle.name = g.types.map (·.name) := by
  rw [List.map_map]
  refine List.map_congr_left fun t _ => ?_
  show (ownType t).name = t.name
  unfold ownType
  split <;> rfl

include h

/-- The types of a datamodel reach no root type. -/
theorem not_isRoot_of_reachedFrom {x : Handle} (hx : x.ReachedFrom g (g.types.map ownType)) :
    ∀ r, x = .made r → r.kind.isRoot = false := by
  cases hx with
  | root hx =>
    obtain ⟨t, _, rfl⟩ := List.mem_map.mp hx
    rintro _ ⟨⟩
    split <;> rfl
  | @ref x _ d _ hd hy =>
    rintro r rfl
    cases x with
    | made r' => exact (refers_of_define h hd _ hy).isRoot_eq_false
    | _ =>
      cases hd
      cases hy

omit h in
theorem toList_roots_eq {s : Schema} (hs : Assembled g s) :
    s.query.toList ++ s.mutation.toList = if g.models.isEmpty then [] else ["Query", "Mutation"] := by
  rw [hs.query, hs.mutation, rootName, rootName]
  split <;> rfl

/-- What a schema holds was collected, in this order. -/
theorem exists_collected {s : Schema} (hs : assemble g (fresh g) = .ok s) : ∃ refs,
    Schema.Reach.Collected (define g (fresh g)) (· = .absent) (g.types.map ownType) (rootTypes g) refs ∧
      s.types.map (·.name) = refs.map Handle.name ∧ ∀ x ∈ refs, x.ReachedFrom g (schemaRoots g) := by
  have hfree := (assembled_of_eq_ok h hs).free
  obtain ⟨found, hfound, hwalked⟩ := exists_walk h hfree
  rw [assemble_of_walk h hfree hfound] at hs
  split at hs
  · cases hs
  · cases hs
    refine ⟨found.refs, ?_, ?_, fun x => (mem_refs_iff h hwalked).mp⟩
    · exact Schema.Reach.collected_of_types (world_reached h hfree) (fun _ hy => .root (List.mem_append_left _ hy))
        (fun _ hy => .root (List.mem_append_right _ hy)) (length_possibleTypes_le g) hfound
    · rw [← names_of_walked h hfree hwalked, List.map_map]
      rfl

theorem nodup_ownTypes : (g.types.map ownType).Nodup := by
  refine List.Nodup.of_map Handle.name ?_
  rw [map_name_ownTypes]
  exact h.nodup_names

/-- The types of the datamodel are collected in their order, and the root types after them. -/
theorem sublist_of_collected {refs : List Handle} (hrefs : Schema.Reach.Collected (define g (fresh g)) (· = .absent)
      (g.types.map ownType) (rootTypes g) refs) :
    (g.types.map ownType ++ if g.models.isEmpty then [] else
      [Handle.made (.shared .query), Handle.made (.shared .mutation)]).Sublist refs := by
  have hpresent : ∀ y ∈ g.types.map ownType, decide (y = .absent) = false := by
    intro y hy
    obtain ⟨t, _, rfl⟩ := List.mem_map.mp hy
    exact decide_eq_false nofun
  cases hempty : g.models.isEmpty with
  | true =>
    rw [if_pos rfl, List.append_nil]
    exact hrefs.sublist (nodup_ownTypes h) hpresent
  | false =>
    have hroots : rootTypes g = [.made (.shared .query), .made (.shared .mutation), .scalar .boolean,
        .scalar .string] := by
      rw [rootTypes, hempty]
      rfl
    have hroot : ∀ k : Kind, k.isRoot = true →
        ¬Handle.ReachedFrom g (g.types.map ownType) (.made (.shared k)) ∧
          decide (Handle.made (.shared k) = .absent) = false := by
      refine fun k hk => ⟨fun hc => ?_, rfl⟩
      have hnot : k.isRoot = false := not_isRoot_of_reachedFrom h hc _ rfl
      rw [hk] at hnot
      cases hnot
    rw [hroots] at hrefs
    exact hrefs.sublist_roots (P := Handle.ReachedFrom g (g.types.map ownType))
      (fun _ _ hx hd _ hy => .ref hx hd hy) (nodup_ownTypes h) (fun y hy => ⟨.root hy, hpresent y hy⟩)
      (hroot .query rfl) (hroot .mutation rfl) (by decide)

theorem sublist_names_of_eq_ok {s : Schema} (hs : assemble g (fresh g) = .ok s) :
    (g.types.map (·.name) ++ (s.query.toList ++ s.mutation.toList)).Sublist (s.types.map (·.name)) := by
  obtain ⟨refs, hrefs, hnames, _⟩ := exists_collected h hs
  have hsublist := (sublist_of_collected h hrefs).map Handle.name
  rw [List.map_append, map_name_ownTypes] at hsublist
  have hroots : (if g.models.isEmpty then [] else
      [Handle.made (.shared .query), Handle.made (.shared .mutation)]).map Handle.name =
        if g.models.isEmpty then [] else ["Query", "Mutation"] := by
    split <;> rfl
  rwa [hnames, toList_roots_eq (assembled_of_eq_ok h hs), ← hroots]

/-- The types of the datamodel and the root types are among those that are printed. -/
theorem sublist_shown {s : Schema} (hs : assemble g (fresh g) = .ok s) :
    (g.types.map (·.name) ++ (s.query.toList ++ s.mutation.toList)).Sublist
      ((s.types.filter Schema.isDeclared).map (·.name)) := by
  have hassembled := assembled_of_eq_ok h hs
  have hshown : ∀ n ∈ g.types.map (·.name) ++ (s.query.toList ++ s.mutation.toList), (!isReservedName n) = true := by
    intro n hn
    rcases List.mem_append.mp hn with hn | hn
    · obtain ⟨t, ht, rfl⟩ := List.mem_map.mp hn
      rw [isReservedName_declared h ht (hassembled.free t ht)]
      rfl
    · have hroots : ∀ n ∈ ["Query", "Mutation"], (!isReservedName n) = true := by decide
      rw [toList_roots_eq hassembled] at hn
      split at hn
      · cases hn
      · exact hroots n hn
  have hfilter : (s.types.filter Schema.isDeclared).map (·.name) =
      (s.types.map (·.name)).filter fun n => !isReservedName n := by
    rw [List.filter_map]
    rfl
  rw [hfilter, ← List.filter_eq_self.mpr hshown]
  exact (sublist_names_of_eq_ok h hs).filter _

end Order

/-! ## Main result -/

/-- A schema holds the types of its datamodel first and in their order, and it is printed so. -/
theorem ownTypesFirst_of_parse {database : Database} {source : List Char} {types : List ModelType}
    (h : parse database source = .ok types) {s : Schema} (hs : schema (.ofTypes types) = .ok s) :
    OwnTypesFirst types s := by
  have hnodup := (wellFormed_of_parse h).nodup_names
  have hwf := (wellFormed_of_parse h).ofTypes
  rw [schema_eq_assemble] at hs
  have hassembled := assembled_of_eq_ok hwf hs
  have hsublist := sublist_names_of_eq_ok hwf hs
  have hshown := sublist_shown hwf hs
  obtain ⟨refs, hrefs, hnames, hreached⟩ := exists_collected hwf hs
  have hvalid : ∀ x ∈ refs, x.Valid (.ofTypes types) := fun x hx =>
    valid_of_reachedFrom hwf valid_schemaRoots (hreached x hx)
  rw [TypeGraph.types_ofTypes hnodup] at hsublist hshown hrefs
  refine ⟨⟨refs, hrefs, ?_⟩, ?_, ?_, ?_, s.types.filter Schema.isDeclared, rfl, hshown⟩
  · rw [Schema.allTypes, List.map_append, hnames, Introspection.map_name_types]
  · rw [toList_roots_eq hassembled, TypeGraph.models_ofTypes hnodup, isEmpty_filter]
    cases types.any (·.isModel) <;> rfl
  · exact nodup_names_allTypes hassembled.free hvalid hnames (hnames ▸ nodup_names_of_eq_ok hwf hs)
  · rw [Schema.allTypes, List.map_append]
    exact hsublist.trans (List.sublist_append_left _ _)

/-- A model that refers to a later enum and by a list to a later model, which refers back. -/
def chainSource : List Char :=
  "type Draft { state: State posts: [Post] } type Post { id: ID! draft: Draft } enum State { OPEN }".toList

theorem ownTypesFirst_chain : ∃ types s, parse .relational chainSource = .ok types ∧
    schema (.ofTypes types) = .ok s ∧ OwnTypesFirst types s := by
  obtain ⟨types, s, hparse, hs⟩ : ∃ types s, parse .relational chainSource = .ok types ∧
      schema (.ofTypes types) = .ok s :=
    exists_schema_of_isOk (by decide +kernel)
  exact ⟨types, s, hparse, hs, ownTypesFirst_of_parse hparse hs⟩

end OpenCrud.Generate
