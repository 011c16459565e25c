import OpenCrud.Proofs.Generate.Termination

/-!
# Names that a run remembers

The names that declared types must keep clear of are listed when a datamodel is read: endings and one beginning
(`generatedNames`). The generators make their names on their own. Main result (`namesCovered_of_parse`): after the
run of a schema, every name that is remembered is declared, a scalar's, one of five that exist once, or
listed; and a listed name is no declared name, no scalar's and not reserved.
-/

namespace OpenCrud.Generate

open Datamodel

/-! ## Where a name comes from -/

/-- The names of the types that exist once. -/
def sharedNames : List String := ["Query", "Mutation", "Node", "PageInfo", "BatchPayload"]

/-- Where a name that a run remembers comes from. -/
inductive KeptName (types : List ModelType) : String → Prop
  | declared {t : ModelType} (ht : t ∈ types) : KeptName types t.name
  | scalar (s : Scalar) : KeptName types s.name
  | shared {name : String} (hname : name ∈ sharedNames) : KeptName types name
  | ending {t : ModelType} {s : String} (ht : t ∈ types) (henum : t.isEnum = false)
    (hs : s ∈ generatedSuffixes) : KeptName types (t.name ++ s)
  | aggregate {t : ModelType} (ht : t ∈ types) (henum : t.isEnum = false) :
    KeptName types (aggregateStart ++ t.name)

theorem keptName_typeName {g : TypeGraph} {r : Request} (hr : r ∈ runRequests g) :
    KeptName g.types r.typeName := by
  rcases mem_runRequests hr with
    ⟨s, rfl⟩ | ⟨kind, hkind, rfl⟩ | ⟨t, ht, _, hr⟩ | ⟨t, ht, henum, row, hrow, rfl⟩
  · exact .scalar s
  · have hshared : ∀ kind ∈ sharedKinds, (Request.shared kind).typeName ∈ sharedNames := by decide
    exact .shared (hshared kind hkind)
  · rcases mem_enumRequests.mp hr with rfl | rfl
    · exact .declared ht
    · exact .declared ht
  · rcases List.mem_append.mp hrow with hrow | hrow
    · rw [List.mem_cons, List.mem_singleton] at hrow
      rcases hrow with rfl | rfl
      · exact .declared ht
      · exact .aggregate ht henum
    · obtain ⟨⟨s, kind, args⟩, hending, rfl⟩ := List.mem_map.mp hrow
      have hname : Request.typeName ⟨kind, t.name, args⟩ = t.name ++ s := typeName_of_mem_endings hending _
      rw [hname]
      exact .ending ht henum (mem_generatedSuffixes hending)

/-- A type that answers a request of a run has the name of the request. -/
theorem name_of_fresh {g : TypeGraph} (h : WellFormed g.types) {r : Request} (hr : r ∈ runRequests g)
    {x : Handle} (hx : fresh g r = .ok (some x)) : x.name = r.typeName := by
  -- Only the answers for scalars are not made for their requests: they are scalars, or enums made for others.
  by_cases hk : r.kind = .scalar
  · rcases mem_runRequests hr with
      ⟨s, rfl⟩ | ⟨kind, hkind, rfl⟩ | ⟨t, ht, henum, hr⟩ | ⟨t, _, _, row, hrow, rfl⟩
    · rw [fresh_scalar h s] at hx
      cases hx
      rfl
    · have hshared : ∀ kind ∈ sharedKinds, kind ≠ .scalar := by decide
      exact absurd hk (hshared kind hkind)
    · rcases mem_enumRequests.mp hr with rfl | rfl
      · rw [fresh_scalar_enum h ht henum] at hx
        have henumKind : (Request.of .enum t.name).kind ≠ .scalar := Kind.noConfusion
        rw [gives_fresh henumKind _ hx x rfl]
        rfl
      · cases hk
    · have hrows : ∀ row ∈ modelRows, row.1 ≠ .scalar := by decide
      exact absurd hk (hrows row hrow)
  · rw [gives_fresh hk _ hx x rfl]
    rfl

/-! ## Names that lie apart -/

theorem mem_map_name_of_isScalar {name : String} (h : Scalar.isScalar name = true) :
    name ∈ Scalar.all.map Scalar.name := by
  obtain ⟨s, hs⟩ := Option.isSome_iff_exists.mp h
  have hname : s.name = name := by simpa using List.find?_some hs
  exact List.mem_map.mpr ⟨s, Scalar.mem_all s, hname⟩

/-- A generated name is no scalar's and not reserved, whatever it is generated for. -/
theorem generatedName_apart {type name : String} (h : name ∈ generatedNames type) :
    name ∉ Scalar.all.map Scalar.name ++ reservedTypeNames := by
  intro hfixed
  have hsuffix : ∀ n ∈ Scalar.all.map Scalar.name ++ reservedTypeNames, ∀ s ∈ generatedSuffixes,
      ¬s.toList <:+ n.toList := by decide
  have hprefix : ∀ n ∈ Scalar.all.map Scalar.name ++ reservedTypeNames,
      ¬aggregateStart.toList <+: n.toList := by decide
  rcases List.mem_append.mp h with h | h
  · obtain ⟨s, hs, rfl⟩ := List.mem_map.mp h
    refine hsuffix _ hfixed s hs ?_
    rw [String.toList_append]
    exact List.suffix_append _ _
  · rw [List.mem_singleton.mp h] at hfixed
    refine hprefix _ hfixed ?_
    rw [String.toList_append]
    exact List.prefix_append _ _

/-! ## Main result -/

/-- That the list of generated names covers what the run of a schema remembers, and that its names lie apart from
those that have another meaning. -/
structure NamesCovered (types : List ModelType) : Prop where
  kept : ∀ entry ∈ (schemaRun (.ofTypes types)).2.entries, KeptName types entry.1.typeName
  named : ∀ entry ∈ (schemaRun (.ofTypes types)).2.entries, ∀ x ∈ entry.2, x.name = entry.1.typeName
  apart : ∀ t ∈ types, t.isEnum = false → ∀ name ∈ generatedNames t.name,
    (∀ u ∈ types, name ≠ u.name) ∧ Scalar.isScalar name = false ∧ name ∉ reservedTypeNames

/-- No type that is declared in an accepted datamodel is shadowed by one that is generated. -/
theorem namesCovered_of_parse {database : Database} {source : List Char} {types : List ModelType}
    (h : parse database source = .ok types) : NamesCovered types := by
  have hwf := wellFormed_of_parse h
  have htypes := TypeGraph.types_ofTypes hwf.nodup_names
  refine ⟨fun entry hentry => ?_, fun entry hentry x hx => ?_, fun t ht henum name hname => ⟨?_, ?_, ?_⟩⟩
  · obtain ⟨r, hr, hkey, _⟩ := exists_request hwf.ofTypes hentry
    have hkept := keptName_typeName hr
    rw [htypes] at hkept
    rw [← hkey]
    exact hkept
  · obtain ⟨r, hr, hkey, hfresh⟩ := exists_request hwf.ofTypes hentry
    rw [hx] at hfresh
    rw [← hkey]
    exact name_of_fresh hwf.ofTypes hr hfresh
  · rintro u hu rfl
    exact hwf.not_generated u hu t ht henum hname
  · have hfixed := generatedName_apart hname
    rw [List.mem_append, not_or] at hfixed
    exact Bool.eq_false_iff.mpr fun hscalar => hfixed.1 (mem_map_name_of_isScalar hscalar)
  · have hfixed := generatedName_apart hname
    rw [List.mem_append, not_or] at hfixed
    exact hfixed.2

theorem namesCovered_circle : ∃ types, parse .document circleSource = .ok types ∧ NamesCovered types := by
  obtain ⟨types, h⟩ : ∃ types, parse .document circleSource = .ok types :=
    exists_eq_ok (by decide +kernel)
  exact ⟨types, h, namesCovered_of_parse h⟩

end OpenCrud.Generate
