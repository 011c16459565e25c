import Mathlib.Data.List.Pairwise
import OpenCrud.Proofs.Client.DeclaredTypes

/-!
# When a client exports each name once

A client exports fixed names, the name of each type, and names that are derived from those: an object has a node
under a second name. The names that a datamodel may declare are not checked against any of these. Main result: for
an accepted datamodel with a schema the exported names are distinct exactly where no declared name is one of the
client's own, and neither a declared name nor that of an aggregate is a derived one (`exportedNames_iff`).
-/

namespace OpenCrud.Client

open Datamodel Generate

/-! ## Names of a type -/

theorem nodeName_ne_self (a : String) : nodeName a ≠ a := by
  intro h
  have hlength := congrArg String.length h
  have hnode : "Node".length = 4 := by decide
  rw [nodeName, String.length_append, hnode] at hlength
  omega

theorem nodup_ownNames (u : NamedType String) : (ownNames u).Nodup := by
  have hnode : [nodeName u.name, u.name].Nodup := by
    simpa using nodeName_ne_self u.name
  obtain ⟨name, description, body⟩ := u
  cases body with
  | object => exact hnode
  | scalar =>
    dsimp only [ownNames, derivedNames, plainNames]
    split
    · decide
    · exact List.nodup_singleton _
  | _ => exact List.nodup_singleton _

/-! ## Names of the skeleton -/

/-- The names that belong to the text of a client itself, and those of an identifier. -/
def fixedExports : List String :=
  ["Exists", "Node", "Prisma", "Delegate", "DelegateQuery", "DelegateMutation", "BindingConstructor", "ID_Input",
    "ID_Output"]

theorem skeletonNames_spec (s : Schema) : (skeletonNames s).Nodup ∧
    ∀ n ∈ skeletonNames s, n ∈ fixedExports ∧ n ≠ "ID_Input" ∧ n ≠ "ID_Output" := by
  delta skeletonNames
  split <;> split <;> decide

theorem not_hidden_of_mem_fixedExports : ∀ n ∈ fixedExports, isHiddenName n = false := by decide

/-- A node has the name of the skeleton only if its type has no name. -/
theorem eq_empty_of_nodeName {a : String} (h : nodeName a ∈ fixedExports) : a = "" := by
  have hfixed : ∀ n ∈ fixedExports, "Node".toList <:+ n.toList → n = "Node" := by decide
  have hname : nodeName a = nodeName "" := hfixed _ h (suffix_nodeName a)
  exact nodeName_inj hname

/-! ## Where names come from -/

section Origins

variable {g : TypeGraph} {x : Handle}

/-- A generated name is none of the client's own. -/
theorem exists_declared_of_fixed (hx : x.Valid g) (hname : x.name ∈ fixedExports) :
    x = .made (.shared .node) ∨ ∃ t ∈ g.types, x.name = t.name := by
  have hcommon : ∀ y ∈ commonTypes, y.name ∈ fixedExports → y = .made (.shared .node) := by decide
  have hstart : ∀ n ∈ fixedExports, ¬aggregateStart.toList <+: n.toList := by decide
  have hending : ∀ n ∈ fixedExports, ∀ s ∈ generatedSuffixes, ¬s.toList <:+ n.toList := by decide
  cases hx with
  | scalar s => exact Or.inl (hcommon _ (mem_commonTypes_scalar s) hname)
  | shared hk => exact Or.inl (hcommon _ (mem_commonTypes_shared hk) hname)
  | enum ht _ => exact Or.inr ⟨_, ht, rfl⟩
  | object ht _ => exact Or.inr ⟨_, ht, rfl⟩
  | aggregate ht _ =>
    refine absurd ?_ (hstart _ hname)
    exact String.toList_append ▸ List.prefix_append _ _
  | helper ht _ hrow _ _ =>
    refine absurd ?_ (hending _ hname _ (mem_generatedSuffixes hrow))
    rw [Handle.name, typeName_of_mem_endings hrow, String.toList_append]
    exact List.suffix_append _ _

/-- Only declared names and those of aggregates end like the name of a node. -/
theorem exists_declared_of_nodeName (hx : x.Valid g) {a : String} (ha : a ≠ "") (hname : x.name = nodeName a) :
    ∃ t ∈ g.types, x.name = t.name ∨ t.isModel = true ∧ x.name = aggregateStart ++ t.name := by
  have hcommon : ∀ y ∈ commonTypes, "Node".toList <:+ y.name.toList → y.name = "Node" := by decide
  have hending : ∀ s ∈ generatedSuffixes, ¬s.toList <:+ "Node".toList ∧ ¬"Node".toList <:+ s.toList := by decide
  have hsuffix : "Node".toList <:+ x.name.toList := hname ▸ suffix_nodeName a
  have hempty : x.name = "Node" → a = "" := fun h => nodeName_inj (b := "") (hname.symm.trans h)
  cases hx with
  | scalar s => exact absurd (hempty (hcommon _ (mem_commonTypes_scalar s) hsuffix)) ha
  | shared hk => exact absurd (hempty (hcommon _ (mem_commonTypes_shared hk) hsuffix)) ha
  | enum ht _ => exact ⟨_, ht, Or.inl rfl⟩
  | object ht _ => exact ⟨_, ht, Or.inl rfl⟩
  | aggregate ht hmodel => exact ⟨_, ht, Or.inr ⟨hmodel, rfl⟩⟩
  | helper ht _ hrow _ _ =>
    obtain ⟨hleft, hright⟩ := hending _ (mem_generatedSuffixes hrow)
    rw [Handle.name, typeName_of_mem_endings hrow, String.toList_append] at hsuffix
    rcases List.suffix_or_suffix_of_suffix (List.suffix_append _ _) hsuffix with h | h
    · exact absurd h hleft
    · exact absurd h hright

end Origins

/-! ## Distinct names -/

/-- That the names that a datamodel leads to lie apart from those that a client adds. -/
structure ExportsApart (types : List ModelType) (s : Schema) : Prop where
  /-- No declared name is one of the client's own. -/
  skeleton : ∀ t ∈ types, t.name ∉ skeletonNames s
  /-- Neither a declared name nor that of an aggregate is derived from the name of a type. -/
  derived : ∀ u ∈ declaredTypes s, ∀ n ∈ derivedNames u, ∀ t ∈ types,
    n ≠ t.name ∧ (t.isModel = true → n ≠ "Aggregate" ++ t.name)

/-- The names that a client exports, as those of its skeleton and of its types. -/
def clientNames (s : Schema) : List String := skeletonNames s ++ (declaredTypes s).flatMap ownNames

section Distinct

variable {g : TypeGraph} (h : WellFormed g.types) {s : Schema} (hs : Assembled g s)

include h hs

theorem exists_plain_own {t : ModelType} (ht : t ∈ g.types) (hvisible : isHiddenName t.name = false) :
    ∃ u ∈ declaredTypes s, t.name ∈ plainNames u := by
  have hroot := name_not_mem_roots h ht
  have hown : (ownType t).name = t.name ∧ (ownType t).category ≠ .scalar ∧ (ownType t).category ≠ .interface := by
    unfold ownType
    cases t.isEnum with
    | true => exact ⟨rfl, nofun, nofun⟩
    | false => exact ⟨rfl, nofun, nofun⟩
  rw [← hown.1] at hvisible hroot ⊢
  obtain ⟨u, hu, hname, hcategory⟩ := exists_declaredType h hs (Assembled.reached_ownType ht) hvisible hroot
  exact ⟨u, hu, hname ▸ mem_plainNames_of_category (fun hc => absurd (hcategory ▸ hc) hown.2.1)
    (hcategory ▸ hown.2.2)⟩

theorem exists_plain_aggregate {t : ModelType} (ht : t ∈ g.models) :
    ∃ u ∈ declaredTypes s, aggregateStart ++ t.name ∈ plainNames u := by
  have hroot : ∀ n ∈ ["Query", "Mutation"], n ∈ fixedNames := by decide
  have hvisible : isHiddenName (aggregateStart ++ t.name) = false := by
    rw [isHiddenName, String.toList_append]
    rfl
  obtain ⟨u, hu, hname, hcategory⟩ := exists_declaredType h hs (reached_aggregate h hs.free ht) hvisible
    fun hc => aggregate_not_mem_fixedNames (hroot _ hc)
  have hown : u.name = aggregateStart ++ t.name := hname
  exact ⟨u, hu, hown ▸ mem_plainNames_of_category (hcategory ▸ nofun) (hcategory ▸ nofun)⟩

/-- A name derived from one type is not the name of another one. -/
theorem derived_ne_plain (happart : ExportsApart g.types s) {u v : NamedType String} (hu : u ∈ declaredTypes s)
    (hv : v ∈ declaredTypes s) {n : String} (hn : n ∈ derivedNames u) : n ∉ plainNames v := by
  intro hplain
  obtain ⟨rfl, _⟩ := mem_plainNames hplain
  obtain ⟨x, hx, hname, _⟩ := exists_handle h hs (mem_declaredTypes.mp hv).1
  have hnot := happart.derived u hu _ hn
  rcases mem_derivedNames hn with hnode | ⟨_, hid⟩
  · have hempty := name_ne_empty h hs (mem_declaredTypes.mp hu).1
    obtain ⟨t, ht, hdeclared | ⟨hmodel, haggregate⟩⟩ := exists_declared_of_nodeName hx hempty (hname.trans hnode)
    · exact (hnot t ht).1 (hname.symm.trans hdeclared)
    · exact (hnot t ht).2 hmodel (hname.symm.trans haggregate)
  · have hfixed : ∀ n ∈ ["ID_Input", "ID_Output"], n ∈ fixedExports ∧ n ≠ "Node" := by decide
    rcases exists_declared_of_fixed hx (hname ▸ (hfixed _ hid).1) with rfl | ⟨t, ht, hdeclared⟩
    · exact (hfixed _ hid).2 hname.symm
    · exact (hnot t ht).1 (hname.symm.trans hdeclared)

omit h hs in
/-- A derived name tells which type it is derived from. -/
theorem name_eq_of_derived {u v : NamedType String} {n : String} (hu : n ∈ derivedNames u)
    (hv : n ∈ derivedNames v) : u.name = v.name := by
  have hid : ∀ {a : String}, nodeName a ∉ ["ID_Input", "ID_Output"] := by
    intro a ha
    have hsuffix : ∀ n ∈ ["ID_Input", "ID_Output"], ¬"Node".toList <:+ n.toList := by decide
    exact hsuffix _ ha (suffix_nodeName a)
  rcases mem_derivedNames hu with rfl | ⟨hu, hidu⟩
  · rcases mem_derivedNames hv with hv | ⟨_, hidv⟩
    · exact nodeName_inj hv
    · exact absurd hidv hid
  · rcases mem_derivedNames hv with rfl | ⟨hv, _⟩
    · exact absurd hidu hid
    · exact hu.trans hv.symm

/-- A name that a type exports is not one of the skeleton. -/
theorem own_not_mem_skeletonNames (happart : ExportsApart g.types s) {u : NamedType String}
    (hu : u ∈ declaredTypes s) {n : String} (hn : n ∈ ownNames u) : n ∉ skeletonNames s := by
  intro hskeleton
  obtain ⟨hfixed, hinput, houtput⟩ := (skeletonNames_spec s).2 n hskeleton
  have hmem := (mem_declaredTypes.mp hu).1
  rcases List.mem_append.mp hn with hderived | hplain
  · rcases mem_derivedNames hderived with rfl | ⟨_, hid⟩
    · exact name_ne_empty h hs hmem (eq_empty_of_nodeName hfixed)
    · simp only [List.mem_cons, List.not_mem_nil, or_false] at hid
      exact hid.elim hinput houtput
  · obtain ⟨rfl, hinterface⟩ := mem_plainNames hplain
    obtain ⟨x, hx, hname, hcategory⟩ := exists_handle h hs hmem
    rcases exists_declared_of_fixed hx (hname ▸ hfixed) with rfl | ⟨t, ht, hdeclared⟩
    · exact hinterface hcategory
    · exact happart.skeleton t ht (hdeclared ▸ hname ▸ hskeleton)

theorem nodup_clientNames (hnodup : (s.types.map (·.name)).Nodup) (happart : ExportsApart g.types s) :
    (clientNames s).Nodup := by
  refine List.nodup_append.mpr ⟨(skeletonNames_spec s).1, List.nodup_flatMap.mpr ⟨fun u _ => nodup_ownNames u, ?_⟩, ?_⟩
  · refine (nodup_declaredTypes hnodup.of_map).pairwise_of_forall_ne fun u hu v hv hne => ?_
    have hnames : u.name ≠ v.name := fun hname => hne <|
      List.inj_on_of_nodup_map hnodup (mem_declaredTypes.mp hu).1 (mem_declaredTypes.mp hv).1 hname
    -- Each of the two names is derived from its type or is that of the type.
    intro n hnu hnv
    rcases List.mem_append.mp hnu with hu' | hu'
    · rcases List.mem_append.mp hnv with hv' | hv'
      · exact hnames (name_eq_of_derived hu' hv')
      · exact derived_ne_plain h hs happart hu hv hu' hv'
    · rcases List.mem_append.mp hnv with hv' | hv'
      · exact derived_ne_plain h hs happart hv hu hv' hu'
      · exact hnames ((mem_plainNames hu').1.symm.trans (mem_plainNames hv').1)
  · rintro n hn _ hn' rfl
    obtain ⟨u, hu, hown⟩ := List.mem_flatMap.mp hn'
    exact own_not_mem_skeletonNames h hs happart hu hown hn

omit h hs in
/-- Where all names are distinct, a derived name is the name of no type. -/
theorem plain_ne_derived (hnodup : ((declaredTypes s).flatMap ownNames).Nodup) {u v : NamedType String}
    (hu : u ∈ declaredTypes s) (hv : v ∈ declaredTypes s) {n : String} (hn : n ∈ derivedNames u) :
    n ∉ plainNames v := by
  intro hplain
  obtain ⟨hown, hpairwise⟩ := List.nodup_flatMap.mp hnodup
  by_cases heq : u = v
  · subst heq
    exact (List.nodup_append.mp (hown u hu)).2.2 n hn n hplain rfl
  · have : Std.Symm (Function.onFun List.Disjoint ownNames) :=
      ⟨fun _ _ hdisjoint _ hmem hmem' => hdisjoint hmem' hmem⟩
    have hdisjoint := hpairwise.forall hu hv heq
    exact hdisjoint (List.mem_append_left _ hn) (List.mem_append_right _ hplain)

theorem exportsApart_of_nodup (hnodup : (clientNames s).Nodup) : ExportsApart g.types s := by
  obtain ⟨_, htypes, happart⟩ := List.nodup_append.mp hnodup
  refine ⟨fun t ht hskeleton => ?_, fun u hu n hn t ht => ⟨?_, fun hmodel => ?_⟩⟩
  · have hvisible := not_hidden_of_mem_fixedExports _ ((skeletonNames_spec s).2 _ hskeleton).1
    obtain ⟨v, hv, hplain⟩ := exists_plain_own h hs ht hvisible
    exact happart _ hskeleton _ (List.mem_flatMap.mpr ⟨v, hv, List.mem_append_right _ hplain⟩) rfl
  · rintro rfl
    obtain ⟨v, hv, hplain⟩ := exists_plain_own h hs ht (isHiddenName_derived h hs hu hn)
    exact plain_ne_derived htypes hu hv hn hplain
  · rintro rfl
    obtain ⟨v, hv, hplain⟩ := exists_plain_aggregate h hs (List.mem_filter.mpr ⟨ht, hmodel⟩)
    exact plain_ne_derived htypes hu hv hn hplain

end Distinct

/-! ## Main result -/

/--
What a client exports for a datamodel with a schema.

The text consists of pieces, some of which are the headings of interfaces and types, and the names in those are the
names of the skeleton and of the types. They are distinct exactly where what the datamodel declares lies apart from
what the client adds.
-/
theorem exportedNames_iff {database : Database} {source : List Char} {types : List ModelType}
    (h : parse database source = .ok types) {s : Schema} (hs : schema (.ofTypes types) = .ok s)
    (language : Language) (options : ClientOptions) :
    renderPieces (sourcePieces language s types options) = Client.source language s types options ∧
      exportedNames language s types options = clientNames s ∧
      ((exportedNames language s types options).Nodup ↔ ExportsApart types s) := by
  have hwf := (wellFormed_of_parse h).ofTypes
  have htypes := TypeGraph.types_ofTypes (wellFormed_of_parse h).nodup_names
  rw [schema_eq_assemble] at hs
  have hassembled := assembled_of_eq_ok hwf hs
  have hnames := exportedNames_eq language s types options
  refine ⟨renderPieces_sourcePieces language s types options, hnames, ?_⟩
  rw [hnames]
  constructor
  · intro hnodup
    exact htypes ▸ exportsApart_of_nodup hwf hassembled hnodup
  · intro happart
    exact nodup_clientNames hwf hassembled (nodup_names_of_eq_ok hwf hs) (htypes.symm ▸ happart)

/-- A model with an identifier and an enum. -/
def bookSource : List Char := "type Book { id: ID! @id genre: Genre } enum Genre { NOVEL POEM }".toList

theorem exportedNames_book : ∃ types s, parse .relational bookSource = .ok types ∧
    schema (.ofTypes types) = .ok s ∧
    renderPieces (sourcePieces .typescript s types {}) = Client.source .typescript s types {} ∧
    exportedNames .typescript s types {} = clientNames s ∧
    ((exportedNames .typescript s types {}).Nodup ↔ ExportsApart types s) := by
  obtain ⟨types, s, h, hs⟩ : ∃ types s, parse .relational bookSource = .ok types ∧
      schema (.ofTypes types) = .ok s :=
    exists_schema_of_isOk (by decide +kernel)
  exact ⟨types, s, h, hs, exportedNames_iff h hs .typescript {}⟩

/-- A model is called like the node of another one, or like the interface that clients have. -/
theorem node_and_client_exported_twice :
    (∃ s, parse .relational "type A { a: Int } type ANode { a: Int }".toList =
        .ok [numberModel "A", numberModel "ANode"] ∧
      schema (.ofTypes [numberModel "A", numberModel "ANode"]) = .ok s ∧
      ∀ language options, ¬(exportedNames language s [numberModel "A", numberModel "ANode"] options).Nodup) ∧
    ∃ s, parse .relational "type Prisma { a: Int }".toList = .ok [numberModel "Prisma"] ∧
      schema (.ofTypes [numberModel "Prisma"]) = .ok s ∧
      ∀ language options, ¬(exportedNames language s [numberModel "Prisma"] options).Nodup := by
  have htwice : ∀ (types : List ModelType) (name : String),
      ((schema (.ofTypes types)).toOption.any fun s => decide (1 < (clientNames s).count name)) = true →
        ∃ s, schema (.ofTypes types) = .ok s ∧
          ∀ language options, ¬(exportedNames language s types options).Nodup := by
    intro types name htwice
    cases hs : schema (.ofTypes types) with
    | error e =>
      rw [hs] at htwice
      cases htwice
    | ok s =>
      rw [hs] at htwice
      refine ⟨s, rfl, fun language options hnodup => ?_⟩
      rw [exportedNames_eq] at hnodup
      exact absurd (of_decide_eq_true htwice) (Nat.not_lt.mpr (List.nodup_iff_count_le_one.mp hnodup name))
  obtain ⟨s, hs, hnode⟩ := htwice [numberModel "A", numberModel "ANode"] "ANode" (by decide +kernel)
  obtain ⟨s', hs', hprisma⟩ := htwice [numberModel "Prisma"] "Prisma" (by decide +kernel)
  exact ⟨⟨s, rfl, hs, hnode⟩, s', rfl, hs', hprisma⟩

end OpenCrud.Client
