import OpenCrud.Proofs.Datamodel.Graph
import OpenCrud.Proofs.Generate.Memory
import OpenCrud.Proofs.Naming

/-!
# Names of generated types

Which types a schema of an accepted datamodel can hold (`Handle.Valid`), and which of them share a name. Endings
make names that lie apart, since no ending ends in another one. The only names that can meet are that
of an aggregate, which has its word in front, and one with an ending (`clash_of_name_eq`).
-/

namespace OpenCrud.Generate

open Datamodel

/-! ## Endings -/

/-- The endings of names of generated types, with the kinds of types and the arguments they belong to. -/
def endings : List (String × Kind × Args) :=
  [("WhereInput", .whereInput, .none), ("WhereUniqueInput", .whereUnique, .none),
   ("OrderByInput", .orderBy, .none), ("CreateInput", .create, .none),
   ("CreateOneInput", .createOne, .none), ("CreateManyInput", .createMany, .none),
   ("UpdateInput", .update, .none), ("UpdateDataInput", .update, .isNested),
   ("UpdateOneInput", .updateOne, .ofRequired false),
   ("UpdateOneRequiredInput", .updateOne, .ofRequired true),
   ("UpdateManyInput", .updateMany, .none),
   ("UpdateWithWhereUniqueNestedInput", .updateWithWhereUnique, .none),
   ("UpsertNestedInput", .upsertNested, .none),
   ("UpdateManyMutationInput", .updateManyMutation, .none), ("Edge", .edge, .none),
   ("Connection", .connection, .none)]

/-- The endings are those that the names of a datamodel keep clear of. -/
theorem map_fst_endings : endings.map Prod.fst = generatedSuffixes := rfl

theorem mem_generatedSuffixes {s : String} {k : Kind} {a : Args} (h : (s, k, a) ∈ endings) :
    s ∈ generatedSuffixes := by
  rw [← map_fst_endings]
  exact List.mem_map_of_mem h

theorem own_of_mem_endings {s : String} {k : Kind} {a : Args} (h : (s, k, a) ∈ endings) : Args.Own a := by
  have hrows : ∀ row ∈ endings, row.2.2 = .none ∨ row.2.2 = .isNested ∨ ∃ required, row.2.2 = .ofRequired required := by
    decide
  exact hrows _ h

/-- The name of a generated type is read off the table of endings. -/
theorem typeName_of_mem_endings {s : String} {k : Kind} {a : Args} (h : (s, k, a) ∈ endings)
    (subject : String) : Request.typeName ⟨k, subject, a⟩ = subject ++ s := by
  simp only [endings, List.mem_cons, Prod.mk.injEq, List.not_mem_nil, or_false] at h
  rcases h with h | h | h | h | h | h | h | h | h | h | h | h | h | h | h | h <;>
    obtain ⟨rfl, rfl, rfl⟩ := h <;> rfl

/-- No ending ends in another one. -/
theorem eq_of_suffix : ∀ s ∈ generatedSuffixes, ∀ s' ∈ generatedSuffixes,
    s.toList <:+ s'.toList → s = s' := by
  decide

/-- No ending ends in another one, so a generated name tells the type and the ending. -/
theorem append_ending_inj {a b s s' : String} (hs : s ∈ generatedSuffixes)
    (hs' : s' ∈ generatedSuffixes) (h : a ++ s = b ++ s') : a = b ∧ s = s' := by
  have hlist : a.toList ++ s.toList = b.toList ++ s'.toList := by
    rw [← String.toList_append, ← String.toList_append, h]
  -- Both endings end the same text, so one of them ends in the other one.
  have heq : s = s' := by
    rcases List.suffix_or_suffix_of_suffix (List.suffix_append a.toList s.toList)
      (hlist ▸ List.suffix_append b.toList s'.toList) with hsuf | hsuf
    · exact eq_of_suffix s hs s' hs' hsuf
    · exact (eq_of_suffix s' hs' s hs hsuf).symm
  subst heq
  exact ⟨(String.append_left_inj s).mp h, rfl⟩

/-! ## Names that stand for themselves -/

/-- The types that belong to no type of the datamodel: the scalars and those that exist once per schema. -/
def commonTypes : List Handle :=
  Scalar.all.map .scalar ++
    [Kind.node, .pageInfo, .batchPayload, .query, .mutation].map (.made <| .shared ·)

/-- The names that no type generated for a type of the datamodel has. -/
def fixedNames : List String := commonTypes.map Handle.name ++ introspectionNames

theorem mem_commonTypes_scalar (s : Scalar) : .scalar s ∈ commonTypes := by
  cases s <;> decide

theorem mem_commonTypes_shared {k : Kind} (hk : k.isShared = true) :
    .made (.shared k) ∈ commonTypes := by
  cases k <;> first | decide | exact absurd hk (by decide)

/-- Names that stand for themselves have none of the endings. -/
theorem append_ending_not_mem_fixedNames {a s : String} (hs : s ∈ generatedSuffixes) :
    a ++ s ∉ fixedNames := by
  intro hmem
  have hfixed : ∀ n ∈ fixedNames, ∀ s ∈ generatedSuffixes, ¬s.toList <:+ n.toList := by decide
  refine hfixed _ hmem s hs ?_
  rw [String.toList_append]
  exact List.suffix_append _ _

theorem aggregate_not_mem_fixedNames {a : String} : aggregateStart ++ a ∉ fixedNames := by
  intro hmem
  have hfixed : ∀ n ∈ fixedNames, ¬aggregateStart.toList <+: n.toList := by decide
  refine hfixed _ hmem ?_
  rw [String.toList_append]
  exact List.prefix_append _ _

/-- The check of names refuses nothing but names that stand for themselves. -/
theorem mem_fixedNames_of_isReservedName {n : String} (h : isReservedName n = true) :
    n ∈ fixedNames := by
  unfold isReservedName at h
  rw [Bool.or_eq_true] at h
  rw [fixedNames, List.mem_append]
  rcases h with h | h
  · obtain ⟨s, hs, _⟩ := (Option.any_eq_true _ _).mp h
    have hname : s.name = n := by simpa using List.find?_some hs
    exact Or.inl (List.mem_map.mpr ⟨.scalar s, mem_commonTypes_scalar s, hname⟩)
  · exact Or.inr (by simpa using h)

/-! ## Faults of names -/

theorem isName_append {n s : String} (hn : isName n.toList = true)
    (hs : s.toList.all isNameContinue = true) : isName (n ++ s).toList = true := by
  rw [String.toList_append]
  cases hl : n.toList with
  | nil =>
    rw [hl] at hn
    cases hn
  | cons c cs =>
    rw [hl] at hn
    simp only [isName, Bool.and_eq_true] at hn
    simp only [List.cons_append, isName, Bool.and_eq_true, List.all_append]
    exact ⟨hn.1, hn.2, hs⟩

theorem typeNameFault?_eq_none {n : String} (hn : isName n.toList = true) (hfixed : n ∉ fixedNames) :
    typeNameFault? n = none := by
  have hreserved : isReservedName n = false := by
    by_contra hc
    exact hfixed (mem_fixedNames_of_isReservedName (by simpa using hc))
  rw [typeNameFault?, hreserved, (nameFault?_eq_none_iff n).mpr hn]
  rfl

theorem isName_append_ending {n s : String} (hn : isName n.toList = true) (hs : s ∈ generatedSuffixes) :
    isName (n ++ s).toList = true := by
  have hchars : ∀ s ∈ generatedSuffixes, s.toList.all isNameContinue = true := by decide
  exact isName_append hn (hchars s hs)

/-- The checks on the name of a generated type pass. -/
theorem make_of_typeName_append {r : Request} {n s : String} (hn : isName n.toList = true)
    (hs : s ∈ generatedSuffixes) (hr : r.typeName = n ++ s) : make r = .ok (.made r) := by
  have hfault : typeNameFault? (n ++ s) = none :=
    typeNameFault?_eq_none (isName_append_ending hn hs) (append_ending_not_mem_fixedNames hs)
  rw [make, hr, hfault]

theorem isName_aggregate {n : String} (hn : isName n.toList = true) :
    isName (aggregateStart ++ n).toList = true :=
  isName_append (by decide) (Naming.all_of_isName hn)

theorem make_aggregate {n : String} (hn : isName n.toList = true) :
    make (.of .aggregate n) = .ok (.made (.of .aggregate n)) := by
  have hfault : typeNameFault? (aggregateStart ++ n) = none :=
    typeNameFault?_eq_none (isName_aggregate hn) aggregate_not_mem_fixedNames
  have htype : (Request.of .aggregate n).typeName = aggregateStart ++ n := rfl
  rw [make, htype, hfault]

/-- A type of the datamodel can take its name unless the name is that of a type that describes schemas. -/
theorem make_of_typeName_eq {t : ModelType} (ht : TypeWellFormed t) {r : Request}
    (hr : r.typeName = t.name) :
    make r = if t.name ∈ introspectionNames then .error (.badTypeName (.reserved t.name))
      else .ok (.made r) := by
  have hscalar : Scalar.ofName? t.name = none := by
    simpa [Scalar.isScalar] using ht.not_scalar
  rw [make, hr, typeNameFault?, isReservedName, hscalar, (nameFault?_eq_none_iff _).mpr ht.isName_name]
  by_cases hmem : t.name ∈ introspectionNames
  · simp [hmem]
  · simp [hmem]

/-! ## What a type offers -/

/-- Whether a field of a type can be set. -/
def isWritable (t : ModelType) : Bool := t.fields.any (!·.isReadOnly)

/-- Whether a field of a type selects one of its items. -/
def isSelectable (t : ModelType) : Bool := t.fields.any (·.isUnique)

/-- Whether an item of a type can be related to an item that exists already. -/
def isConnectable (t : ModelType) : Bool := !t.isEmbedded && isSelectable t

/-- Whether the items of a type can be ordered. -/
def isOrderable (g : TypeGraph) (t : ModelType) : Bool :=
  t.fields.any fun f => !f.isList && isLeafOf g f

/-- The kinds of inputs. -/
def Kind.isInput : Kind → Bool
  | .whereInput | .whereUnique | .create | .createOne | .createMany | .update | .updateOne
  | .updateMany | .updateWithWhereUnique | .upsertNested | .updateManyMutation => true
  | _ => false

/-- No input exists once per schema. -/
theorem Kind.isShared_of_isInput {k : Kind} (hk : k.isInput = true) : k.isShared = false := by
  cases k <;> first | rfl | cases hk

/-- No input exists once per schema, so its request may have any subject. -/
theorem proper_of_isInput {r : Request} (hk : r.kind.isInput = true) (hargs : Args.Own r.args) :
    r.Proper Args.Own :=
  ⟨hargs, fun hshared => absurd ((Kind.isShared_of_isInput hk).symm.trans hshared) Bool.false_ne_true⟩

/-- Whether a type has an input of a kind. -/
def offersInput (g : TypeGraph) (t : ModelType) (required : Bool) : Kind → Bool
  | .whereInput => true
  | .whereUnique => isSelectable t
  | .create | .update | .upsertNested => isWritable t
  | .updateManyMutation => t.fields.any fun f => !f.isReadOnly && isLeafOf g f
  | .createOne | .createMany => isWritable t || isConnectable t
  | .updateOne => isWritable t || !required || isConnectable t
  | .updateMany => isSelectable t || isWritable t
  | .updateWithWhereUnique => isSelectable t && isWritable t
  | _ => false

/-! ## Types of a schema -/

/-- The types that a schema of a graph can hold. Only models have pages and aggregates, and an input is there only
where its type has something to write or to select by. -/
inductive Handle.Valid (g : TypeGraph) : Handle → Prop
  | scalar (s : Scalar) : Valid g (.scalar s)
  | shared {k : Kind} (hk : k.isShared = true) : Valid g (.made (.shared k))
  | enum {t : ModelType} (ht : t ∈ g.types) (henum : t.isEnum = true) :
    Valid g (.made (.of .enum t.name))
  | object {t : ModelType} (ht : t ∈ g.types) (henum : t.isEnum = false) :
    Valid g (.made (.of .object t.name))
  | aggregate {t : ModelType} (ht : t ∈ g.types) (hmodel : t.isModel = true) :
    Valid g (.made (.of .aggregate t.name))
  | helper {t : ModelType} {s : String} {k : Kind} {a : Args} (ht : t ∈ g.types)
    (henum : t.isEnum = false) (hrow : (s, k, a) ∈ endings)
    (hpage : k = .connection → t.isModel = true)
    (hoffers : k.isInput = true → offersInput g t a.required k = true) : Valid g (.made ⟨k, t.name, a⟩)

/-- The types of a schema have names. -/
theorem Handle.Valid.isName_name {g : TypeGraph} (h : WellFormed g.types) {x : Handle} (hx : x.Valid g) :
    isName x.name.toList = true := by
  have hcommon : ∀ y ∈ commonTypes, isName y.name.toList = true := by decide
  cases hx with
  | scalar s => exact hcommon _ (mem_commonTypes_scalar s)
  | shared hk => exact hcommon _ (mem_commonTypes_shared hk)
  | enum ht _ => exact (h.type _ ht).isName_name
  | object ht _ => exact (h.type _ ht).isName_name
  | aggregate ht _ => exact isName_aggregate (h.type _ ht).isName_name
  | helper ht _ hrow _ _ =>
    rw [Handle.name, typeName_of_mem_endings hrow]
    exact isName_append_ending (h.type _ ht).isName_name (mem_generatedSuffixes hrow)

/-- Whether one type is the aggregate of a model and the other one has a name with an ending that is the
same name. -/
def Clash (g : TypeGraph) (x y : Handle) : Prop :=
  ∃ t ∈ g.types, t.isModel = true ∧ x = .made (.of .aggregate t.name) ∧
    ∃ u ∈ g.types, ∃ s k a, (s, k, a) ∈ endings ∧ y = .made ⟨k, u.name, a⟩ ∧
      aggregateStart ++ t.name = u.name ++ s

/-! ## Types of one name -/

section SameName

variable {g : TypeGraph} (h : WellFormed g.types) {x y : Handle}

theorem eq_of_mem_commonTypes (hx : x ∈ commonTypes) (hy : y ∈ commonTypes)
    (hname : x.name = y.name) : x = y :=
  List.inj_on_of_nodup_map (by decide : (commonTypes.map Handle.name).Nodup) hx hy hname

include h

/-- A declared type is not called like a scalar or like a type that exists once per schema. -/
theorem declared_name_ne_common {t : ModelType} (ht : t ∈ g.types) (hx : x ∈ commonTypes) :
    x.name ≠ t.name := by
  intro hname
  have hw := h.type t ht
  have hcases : ∀ x ∈ commonTypes,
      Scalar.isScalar x.name = true ∨ x.name ∈ reservedTypeNames := by decide
  rcases hcases x hx with hs | hr
  · rw [hname, hw.not_scalar] at hs
    cases hs
  · exact hw.not_reserved (hname ▸ hr)

/-- A type of the datamodel whose name is free is declared where a schema is printed. -/
theorem isReservedName_declared {t : ModelType} (ht : t ∈ g.types) (hfree : t.name ∉ introspectionNames) :
    isReservedName t.name = false := by
  rw [Bool.eq_false_iff]
  intro hreserved
  rcases List.mem_append.mp (mem_fixedNames_of_isReservedName hreserved) with hcommon | htaken
  · obtain ⟨x, hx, hname⟩ := List.mem_map.mp hcommon
    exact declared_name_ne_common h ht hx hname
  · exact hfree htaken

/-- A type that belongs to no type of the datamodel shares its name with no other type. -/
theorem eq_of_common (hx : x ∈ commonTypes) (hy : y.Valid g) (hname : x.name = y.name) : x = y := by
  have hfixed : x.name ∈ fixedNames := List.mem_append_left _ (List.mem_map_of_mem hx)
  cases hy with
  | scalar s => exact eq_of_mem_commonTypes hx (mem_commonTypes_scalar s) hname
  | shared hk => exact eq_of_mem_commonTypes hx (mem_commonTypes_shared hk) hname
  | enum ht _ => exact absurd hname (declared_name_ne_common h ht hx)
  | object ht _ => exact absurd hname (declared_name_ne_common h ht hx)
  | aggregate ht _ => exact absurd (hname ▸ hfixed) aggregate_not_mem_fixedNames
  | helper ht _ hrow _ _ =>
    rw [hname, Handle.name, typeName_of_mem_endings hrow] at hfixed
    exact absurd hfixed (append_ending_not_mem_fixedNames (mem_generatedSuffixes hrow))

theorem declared_name_ne_aggregate {t u : ModelType} (ht : t ∈ g.types) (hu : u ∈ g.types)
    (henum : u.isEnum = false) : t.name ≠ aggregateStart ++ u.name := by
  intro hname
  refine h.not_generated t ht u hu henum ?_
  rw [hname]
  exact List.mem_append_right _ (List.mem_singleton_self _)

/-- The parser refuses a declared name that would be generated for another type. -/
theorem declared_name_ne_ending {t u : ModelType} (ht : t ∈ g.types) (hu : u ∈ g.types)
    (henum : u.isEnum = false) {s : String} (hs : s ∈ generatedSuffixes) :
    t.name ≠ u.name ++ s := by
  intro hname
  refine h.not_generated t ht u hu henum ?_
  rw [hname]
  exact List.mem_append_left _ (List.mem_map_of_mem hs)

/-- A type of the datamodel shares its name with no generated type. -/
theorem eq_of_declared {t : ModelType} (ht : t ∈ g.types) {r : Request}
    (hr : r = .of (if t.isEnum then .enum else .object) t.name) (hy : y.Valid g)
    (hname : t.name = y.name) : .made r = y := by
  subst hr
  cases hy with
  | scalar s =>
    exact absurd hname.symm (declared_name_ne_common h ht (mem_commonTypes_scalar s))
  | shared hk =>
    exact absurd hname.symm (declared_name_ne_common h ht (mem_commonTypes_shared hk))
  | enum hu henum =>
    obtain rfl := List.inj_on_of_nodup_map h.nodup_names ht hu hname
    rw [henum]
    rfl
  | object hu henum =>
    obtain rfl := List.inj_on_of_nodup_map h.nodup_names ht hu hname
    rw [henum]
    rfl
  | aggregate hu hmodel =>
    exact absurd hname (declared_name_ne_aggregate h ht hu (ModelType.isEnum_of_isModel hmodel))
  | helper hu henum hrow _ _ =>
    rw [Handle.name, typeName_of_mem_endings hrow] at hname
    exact absurd hname (declared_name_ne_ending h ht hu henum (mem_generatedSuffixes hrow))

/-- Two types of a schema that share a name are one type, or an aggregate and a type with an ending. -/
theorem clash_of_name_eq (hx : x.Valid g) (hy : y.Valid g) (hname : x.name = y.name) :
    x = y ∨ Clash g x y ∨ Clash g y x := by
  cases hx with
  | scalar s => exact Or.inl (eq_of_common h (mem_commonTypes_scalar s) hy hname)
  | shared hk => exact Or.inl (eq_of_common h (mem_commonTypes_shared hk) hy hname)
  | enum ht henum => exact Or.inl (eq_of_declared h ht (by rw [henum]; rfl) hy hname)
  | object ht henum => exact Or.inl (eq_of_declared h ht (by rw [henum]; rfl) hy hname)
  | @aggregate t ht hmodel =>
    cases hy with
    | scalar s =>
      exact Or.inl (eq_of_common h (mem_commonTypes_scalar s) (.aggregate ht hmodel) hname.symm).symm
    | shared hk =>
      exact Or.inl (eq_of_common h (mem_commonTypes_shared hk) (.aggregate ht hmodel) hname.symm).symm
    | enum hu henum =>
      exact absurd hname.symm (declared_name_ne_aggregate h hu ht (ModelType.isEnum_of_isModel hmodel))
    | object hu henum =>
      exact absurd hname.symm (declared_name_ne_aggregate h hu ht (ModelType.isEnum_of_isModel hmodel))
    | @aggregate u hu _ =>
      have hnames : t.name = u.name := (String.append_right_inj aggregateStart).mp hname
      exact Or.inl (by rw [hnames])
    | @helper u s k a hu _ hrow _ _ =>
      -- No check compares the names of two generated types, so this can be.
      rw [Handle.name, Handle.name, typeName_of_mem_endings hrow] at hname
      exact Or.inr (Or.inl ⟨t, ht, hmodel, rfl, u, hu, s, k, a, hrow, rfl, hname⟩)
  | @helper u s k a hu henum hrow hpage hoffers =>
    have hx : Handle.Valid g (.made ⟨k, u.name, a⟩) := .helper hu henum hrow hpage hoffers
    cases hy with
    | scalar s => exact Or.inl (eq_of_common h (mem_commonTypes_scalar s) hx hname.symm).symm
    | shared hk => exact Or.inl (eq_of_common h (mem_commonTypes_shared hk) hx hname.symm).symm
    | enum ht henum' => exact Or.inl (eq_of_declared h ht (by rw [henum']; rfl) hx hname.symm).symm
    | object ht henum' => exact Or.inl (eq_of_declared h ht (by rw [henum']; rfl) hx hname.symm).symm
    | @aggregate t ht hmodel =>
      rw [Handle.name, Handle.name, typeName_of_mem_endings hrow] at hname
      exact Or.inr (Or.inr ⟨t, ht, hmodel, rfl, u, hu, s, k, a, hrow, rfl, hname.symm⟩)
    | @helper u' s' k' a' hu' _ hrow' _ _ =>
      rw [Handle.name, Handle.name, typeName_of_mem_endings hrow, typeName_of_mem_endings hrow'] at hname
      obtain ⟨hsubject, rfl⟩ :=
        append_ending_inj (mem_generatedSuffixes hrow) (mem_generatedSuffixes hrow') hname
      have hrows := List.inj_on_of_nodup_map (by decide : (endings.map Prod.fst).Nodup) hrow hrow' rfl
      simp only [Prod.mk.injEq] at hrows
      obtain ⟨_, rfl, rfl⟩ := hrows
      exact Or.inl (by rw [hsubject])

end SameName

end OpenCrud.Generate
