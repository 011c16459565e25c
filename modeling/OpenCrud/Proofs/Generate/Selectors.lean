import OpenCrud.Proofs.Generate.InputParts
import OpenCrud.Proofs.Generate.ObjectFields

/-!
# How one item is selected

One item of a type is selected by a value of a unique field. A field declared with `@unique` is no list, but an
identifier is unique as well and may be one: then the input that selects one item takes a list. Main result:
`plainSelectors_iff`, by which this is the only way for a unique field to be a list, and for an input that selects
one item to take anything but single values.
-/

namespace OpenCrud.Generate

open Sdl Datamodel

/-! ## Selectors -/

/-- The scalar or the enum that a field points at. -/
def leafOf (g : TypeGraph) (f : ModelField) : Handle :=
  match target g f with
  | .ok (.scalar s) => .scalar s
  | .ok (.enum u) => .made (.of .enum u.name)
  | _ => .absent

/-- The field by which a unique field selects an item. -/
def selectorOf (g : TypeGraph) (f : ModelField) : String × InputField Handle :=
  (f.name, { type := if f.isList then listOf (.named (leafOf g f)) else .named (leafOf g f) })

/-- The input that selects one item of a type. -/
def selector (g : TypeGraph) (t : ModelType) : NamedType Handle where
  name := t.name ++ "WhereUniqueInput"
  body := .inputObject ((t.fields.filter (·.isUnique)).map (selectorOf g))

/-- A scalar or an enum that may be left out; neither a list nor required. -/
inductive IsPlain (g : TypeGraph) : TypeExpr Handle → Prop
  | scalar (s : Scalar) : IsPlain g (.named (.scalar s))
  | enum {u : ModelType} (hu : u ∈ g.types) (henum : u.isEnum = true) : IsPlain g (.named (.made (.of .enum u.name)))

/-- That no unique field is a list, and all that selects one item is plain. -/
structure PlainSelectors (g : TypeGraph) (c : Cache) : Prop where
  field : ∀ t ∈ g.types, ∀ f ∈ t.fields, ¬(f.isUnique = true ∧ f.isList = true)
  input : ∀ t ∈ g.types, t.isEnum = false → ∀ a d,
    ((define g (answer g) (.made ⟨.whereUnique, t.name, a⟩)).run c).1 = .ok d →
      ∃ fields, d.body = .inputObject fields ∧ ∀ entry ∈ fields, IsPlain g entry.2.type

/-- The input that selects one item of a type: there is one where a field is unique, and it has a field for each
unique field, in their order. It cannot be looked at where one of them points at an enum called like a type by which
schemas describe themselves. -/
structure SelectedByUnique (g : TypeGraph) (c : Cache) (t : ModelType) : Prop where
  answered : ((answer g (.of .whereUnique t.name)).run c).1 = .ok (madeIf (isSelectable t) (.of .whereUnique t.name))
  defined : ∀ a d, ((define g (answer g) (.made ⟨.whereUnique, t.name, a⟩)).run c).1 = .ok d ↔
    (∀ f ∈ t.fields, f.isUnique = true → f.typeName ∉ introspectionNames) ∧ d = selector g t
  isPlain : ∀ f ∈ t.fields, f.isUnique = true → (IsPlain g (selectorOf g f).2.type ↔ f.isList = false)

/-- That no field of a document is both an identifier and a list. -/
def NoListedId (database : Database) (document : Document) : Prop :=
  ∀ object : ObjectDef, .object object ∈ document →
    ∀ d ∈ object.fields, ¬(isIdField database d = true ∧ isListed d.type = true)

/-! ## Declared fields -/

/-- The only list that is unique is an identifier: `@unique` is refused where the field is a list. -/
theorem isUnique_and_isList_iff {database : Database} {type : String} {d : FieldDef} {f : ModelField}
    (h : declareField database type d = .ok f) :
    (f.isUnique = true ∧ f.isList = true) ↔ (isIdField database d = true ∧ isListed d.type = true) := by
  unfold declareField at h
  split at h
  · rename_i shape hshape
    simp only [failField, error_bind, ite_error_eq_ok_iff] at h
    obtain ⟨hunique, _, _, h⟩ := h
    cases h
    rw [(shown_of_shape hshape).2.1, Bool.or_eq_true, or_and_right]
    exact or_iff_left fun hboth => hunique (Bool.and_eq_true_iff.mpr hboth)
  · cases h

/-! ## Fields of the input -/

section Fields

variable {g : TypeGraph} (h : WellFormed g.types) {t : ModelType} (ht : t ∈ g.types)

include h ht

/-- What a scalar or enum field points at: its type, and whether this can be asked for. -/
theorem leafType_fresh {f : ModelField} (hf : f ∈ t.fields) (hleaf : isLeafOf g f = true) :
    IsPlain g (.named (leafOf g f)) ∧ leafType (fresh g) f =
      if f.typeName ∈ introspectionNames then .error (.badTypeName (.reserved f.typeName))
      else .ok (.named (leafOf g f)) := by
  rcases target_of_mem h ht hf with ⟨s, hname, htarget⟩ | ⟨u, hu, hname, henum, htarget⟩ |
    ⟨u, _, _, _, _, htarget⟩
  · have hfree : s.name ∉ introspectionNames := by cases s <;> decide
    rw [leafOf, htarget, hname, if_neg hfree]
    exact ⟨.scalar s, leafType_scalar_fresh h hname⟩
  · rw [leafOf, htarget, leafType_enum_fresh h hu henum hname, hname]
    exact ⟨.enum hu henum, rfl⟩
  · rw [isLeafOf, htarget] at hleaf
    cases hleaf

theorem isPlain_selectorOf_iff {f : ModelField} (hf : f ∈ t.fields) (hunique : f.isUnique = true) :
    IsPlain g (selectorOf g f).2.type ↔ f.isList = false := by
  unfold selectorOf
  cases f.isList with
  | true => exact ⟨nofun, nofun⟩
  | false => exact iff_of_true (leafType_fresh h ht hf (isLeafOf_of_isUnique h ht hf hunique)).1 rfl

theorem optionalField_eq_ok_iff {f : ModelField} (hf : f ∈ t.fields) (hleaf : isLeafOf g f = true)
    (entry : String × InputField Handle) :
    optionalField (fresh g) f = .ok entry ↔ f.typeName ∉ introspectionNames ∧ entry = selectorOf g f := by
  rw [optionalField, optionalType, (leafType_fresh h ht hf hleaf).2]
  split
  · rename_i htaken
    refine iff_of_false (fun heq => ?_) fun hc => hc.1 htaken
    cases heq
  · rename_i hfree
    exact ⟨fun heq => ⟨hfree, (Except.ok.inj heq).symm⟩, fun heq => heq.2 ▸ rfl⟩

/-- The fields of an input in which every one of some scalar and enum fields may be left out. -/
theorem optionalFields_eq_ok_iff {l : List ModelField} (hl : l.Sublist t.fields) (hleaf : ∀ f ∈ l, isLeafOf g f = true)
    {fields : FieldMap (InputField Handle)} :
    (l.mapM (optionalField (fresh g)) >>= fun entries => pure (FieldMap.ofEntries entries)) = .ok fields ↔
      (∀ f ∈ l, f.typeName ∉ introspectionNames) ∧ fields = l.map (selectorOf g) := by
  have hentries : ∀ entries, l.mapM (optionalField (fresh g)) = .ok entries ↔
      (∀ f ∈ l, f.typeName ∉ introspectionNames) ∧ entries = l.map (selectorOf g) :=
    fun entries => mapM_eq_ok_iff fun f hf => optionalField_eq_ok_iff h ht (hl.subset hf) (hleaf f hf)
  have hnodup : ((l.map (selectorOf g)).map Prod.fst).Nodup := by
    rw [List.map_map]
    exact (h.type t ht).nodup_fields.sublist (hl.map _)
  simp only [bind_eq_ok_iff, hentries]
  constructor
  · rintro ⟨_, ⟨hfree, rfl⟩, hfields⟩
    exact ⟨hfree, (Except.ok.inj hfields).symm.trans (FieldMap.ofEntries_of_nodup hnodup)⟩
  · rintro ⟨hfree, rfl⟩
    exact ⟨_, ⟨hfree, rfl⟩, congrArg Except.ok (FieldMap.ofEntries_of_nodup hnodup)⟩

theorem whereUniqueFields_eq_ok_iff {fields : FieldMap (InputField Handle)} :
    whereUniqueFields g (fresh g) t = .ok fields ↔
      (∀ f ∈ t.fields, f.isUnique = true → f.typeName ∉ introspectionNames) ∧
        fields = (t.fields.filter (·.isUnique)).map (selectorOf g) := by
  have hleaf : ∀ f ∈ t.fields.filter (·.isUnique), isLeafOf g f = true := by
    intro f hf
    obtain ⟨hf, hunique⟩ := List.mem_filter.mp hf
    exact isLeafOf_of_isUnique h ht hf hunique
  rw [whereUniqueFields, uniqueFields_eq h ht, ofExcept_eq, ok_bind,
    optionalFields_eq_ok_iff h ht List.filter_sublist hleaf]
  simp only [List.mem_filter, and_imp]

theorem define_whereUnique_eq_ok_iff (henum : t.isEnum = false) {r : Request} (hk : r.kind = .whereUnique)
    (hr : r.subject = t.name) {d : NamedType Handle} :
    define g (fresh g) (.made r) = .ok d ↔
      (∀ f ∈ t.fields, f.isUnique = true → f.typeName ∉ introspectionNames) ∧ d = selector g t := by
  have hinput : r.kind.isInput = true := by rw [hk]; rfl
  have hfields : inputFields g (fresh g) r t = whereUniqueFields g (fresh g) t := by rw [inputFields, hk]
  have hnamed : r.typeName = t.name ++ "WhereUniqueInput" := by rw [Request.typeName, hk, hr]
  have hdescription : description g r = none := by rw [description, hk]
  rw [define_input_eq_ok_iff h ht henum hinput hr, hfields, hnamed, hdescription]
  simp only [whereUniqueFields_eq_ok_iff h ht]
  constructor
  · rintro ⟨_, ⟨hfree, rfl⟩, hd⟩
    exact ⟨hfree, hd⟩
  · rintro ⟨hfree, hd⟩
    exact ⟨_, ⟨hfree, rfl⟩, hd⟩

variable {c : Cache} (hc : c.Reached g)

include hc

theorem selectedByUnique (henum : t.isEnum = false) : SelectedByUnique g c t where
  answered := (run_answer hc ⟨.inl rfl, fun hshared => by cases hshared⟩).trans (fresh_whereUnique h ht .none)
  defined a d := by
    rw [run_define hc]
    exact define_whereUnique_eq_ok_iff h ht henum rfl rfl
  isPlain _ hf := isPlain_selectorOf_iff h ht hf

omit ht in
/-- All that selects one item is plain where no unique field is a list. -/
theorem plainSelectors_iff_fields :
    PlainSelectors g c ↔ ∀ t ∈ g.types, ∀ f ∈ t.fields, ¬(f.isUnique = true ∧ f.isList = true) := by
  refine ⟨PlainSelectors.field, fun hfields => ⟨hfields, fun t ht henum a d hd => ?_⟩⟩
  have hselected := selectedByUnique h ht hc henum
  obtain ⟨_, rfl⟩ := (hselected.defined a d).mp hd
  refine ⟨_, rfl, List.forall_mem_map.mpr fun f hf => ?_⟩
  obtain ⟨hf, hunique⟩ := List.mem_filter.mp hf
  refine (hselected.isPlain f hf hunique).mpr (Bool.eq_false_iff.mpr fun hlist => ?_)
  exact hfields t ht f hf ⟨hunique, hlist⟩

end Fields

/-! ## Main result -/

/--
At any time of a run, no unique field is a list and all that selects one item is plain, exactly where no field of the
document is both an identifier and a list.

In all cases the input that selects one item has a field for each unique field, which takes a list where the unique
field is one.
-/
theorem plainSelectors_iff {database : Database} {source : List Char} {types : List ModelType}
    (h : parse database source = .ok types) {c : Cache} (hc : c.Reached (.ofTypes types)) :
    (∃ document, Document.parse source = .ok document ∧
      (PlainSelectors (.ofTypes types) c ↔ NoListedId database document)) ∧
    ∀ t ∈ types, t.isEnum = false → SelectedByUnique (.ofTypes types) c t := by
  have hwf := (wellFormed_of_parse h).ofTypes
  have htypes := TypeGraph.types_ofTypes (wellFormed_of_parse h).nodup_names
  obtain ⟨document, hdocument, hdeclared⟩ := parse_eq_ok_iff.mp h
  refine ⟨⟨document, hdocument, ?_⟩, fun t ht henum => selectedByUnique hwf (htypes.symm ▸ ht) hc henum⟩
  rw [plainSelectors_iff_fields hwf hc, htypes]
  exact forall_fields_iff_of_ofDocument (fun _ _ => Iff.rfl)
    (fun _ _ _ hfield => not_congr (isUnique_and_isList_iff hfield)) hdeclared

/-- A type with three unique fields and a list that is not unique, and one without unique fields. -/
def selectedSource : List Char :=
  "type User { id: ID! email: String! @unique mood: Mood @unique tags: [String!] } ".toList ++
    "type Note { text: String } enum Mood { GOOD }".toList

theorem plainSelectors_selected : ∃ types, parse .relational selectedSource = .ok types ∧
    Cache.Reached (.ofTypes types) {} ∧
    (∃ document, Document.parse selectedSource = .ok document ∧
      (PlainSelectors (.ofTypes types) {} ↔ NoListedId .relational document)) ∧
    ∀ t ∈ types, t.isEnum = false → SelectedByUnique (.ofTypes types) {} t := by
  obtain ⟨types, h⟩ : ∃ types, parse .relational selectedSource = .ok types :=
    exists_eq_ok (by decide +kernel)
  exact ⟨types, h, .start, plainSelectors_iff h .start⟩

/-- A model whose identifier is a list. -/
def severalIds : ModelType where
  name := "A"
  fields :=
    [{ name := "id", typeName := "ID", isRequired := true, isList := true, isId := true, isUnique := true
       isReadOnly := true }]

/-- The identifier is unique although it is a list, and one item is selected by a list. -/
theorem selected_by_list :
    parse .relational "type A { id: [ID!]! }".toList = .ok [severalIds] ∧
    ¬PlainSelectors (.ofTypes [severalIds]) {} ∧
    ((define (.ofTypes [severalIds]) (answer (.ofTypes [severalIds])) (.made (.of .whereUnique "A"))).run {}).1 =
      .ok {
        name := "AWhereUniqueInput"
        body := .inputObject [("id", { type := .list (.nonNull (.named (.scalar .id))) })] } := by
  refine ⟨rfl, fun hplain => ?_, by decide +kernel⟩
  exact hplain.field severalIds List.mem_cons_self _ List.mem_cons_self ⟨rfl, rfl⟩

end OpenCrud.Generate
