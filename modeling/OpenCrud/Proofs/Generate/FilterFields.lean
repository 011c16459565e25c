import OpenCrud.Proofs.Generate.Bodies

/-!
# The fields of filter inputs

Every field of a type is promised a filter for each suffix that suits what the field points at; the logical
operators come last. Main result: the filter input has the promised fields, in this order, exactly where no
two filters are called alike and none is called like an operator (`filterFields_iff`). Nothing checks that,
and of two filters of one name the later one counts.
-/

namespace OpenCrud.Generate

open Datamodel
open MonadExcept (ofExcept)

/-! ## What is promised -/

/-- The suffixes of the filters on a scalar. -/
def scalarSuffixes : Scalar → List String
  | .string | .id | .uuid =>
    ["", "_not", "_in", "_not_in", "_lt", "_lte", "_gt", "_gte", "_contains", "_not_contains",
     "_starts_with", "_not_starts_with", "_ends_with", "_not_ends_with"]
  | .int | .float | .long | .dateTime => ["", "_not", "_in", "_not_in", "_lt", "_lte", "_gt", "_gte"]
  | .boolean => ["", "_not"]
  | .json => []

/-- The suffixes of the filters that a field is promised. -/
def promisedSuffixes (g : TypeGraph) (f : ModelField) : List String :=
  match target g f with
  | .ok (.scalar s) => if f.isList then [] else scalarSuffixes s
  | .ok (.enum _) => if f.isList then [] else ["", "_not", "_in", "_not_in"]
  | .ok (.relation _) => if f.isList then ["_every", "_some", "_none"] else [""]
  | .error _ => []

/-- What a filter on a value takes: a value, or a list of values for two of the suffixes. -/
def valueOrList (suffix : String) (value : Handle) : TypeExpr Handle :=
  if suffix = "_in" ∨ suffix = "_not_in" then .list (.nonNull (.named value)) else .named value

/-- The type of a filter that a field is promised. -/
def promisedType (g : TypeGraph) (f : ModelField) (suffix : String) : TypeExpr Handle :=
  match target g f with
  | .ok (.scalar s) => valueOrList suffix (.scalar s)
  | .ok (.enum u) => valueOrList suffix (.made (.of .enum u.name))
  | .ok (.relation u) => .named (.made (.of .whereInput u.name))
  | .error _ => .named .absent

/-- The filters that a field is promised. -/
def promisedFilters (g : TypeGraph) (f : ModelField) : FieldMap (InputField Handle) :=
  (promisedSuffixes g f).map fun suffix => (f.name ++ suffix, { type := promisedType g f suffix })

/-- The operators on the filters of a type. -/
def promisedOperators (t : ModelType) : FieldMap (InputField Handle) :=
  ["AND", "OR", "NOT"].map fun operator =>
    (operator, { type := .list (.nonNull (.named (.made (.of .whereInput t.name)))) })

/-- The fields that the filter input of a type is promised. -/
def promisedWhere (g : TypeGraph) (t : ModelType) : FieldMap (InputField Handle) :=
  t.fields.flatMap (promisedFilters g) ++ promisedOperators t

/-- That the names of filters tell them apart from each other and from the operators. -/
def DistinctFilters (g : TypeGraph) (t : ModelType) : Prop :=
  ∀ f ∈ t.fields, ∀ suffix ∈ promisedSuffixes g f,
    f.name ++ suffix ∉ ["AND", "OR", "NOT"] ∧
    ∀ f' ∈ t.fields, ∀ suffix' ∈ promisedSuffixes g f',
      f.name ++ suffix = f'.name ++ suffix' → f.name = f'.name ∧ suffix = suffix'

/-- Whether the filters on a field take values of an enum whose name is taken by a type by which schemas
describe themselves. -/
def hasTakenEnum (g : TypeGraph) (f : ModelField) : Bool :=
  match target g f with
  | .ok (.enum u) => !f.isList && introspectionNames.contains u.name
  | _ => false

/-! ## Names -/

section Names

variable {g : TypeGraph} {t : ModelType}

/-- No filter of a field is promised twice. -/
theorem nodup_promisedSuffixes (f : ModelField) : (promisedSuffixes g f).Nodup := by
  have hscalar : ∀ s, (scalarSuffixes s).Nodup := by
    intro s
    cases s <;> decide
  unfold promisedSuffixes
  split
  · split
    · exact List.nodup_nil
    · exact hscalar _
  · split <;> decide
  · split <;> decide
  · exact List.nodup_nil

theorem keys_promisedFilters (f : ModelField) :
    (promisedFilters g f).map Prod.fst = (promisedSuffixes g f).map (f.name ++ ·) := by
  rw [promisedFilters, List.map_map]
  rfl

theorem nodup_keys_promisedFilters (f : ModelField) : ((promisedFilters g f).map Prod.fst).Nodup := by
  rw [keys_promisedFilters]
  exact (nodup_promisedSuffixes f).map fun _ _ heq => (String.append_right_inj f.name).mp heq

/-- The names of fields with the suffixes of their filters. -/
def filterNames (g : TypeGraph) (t : ModelType) : List (String × String) :=
  t.fields.flatMap fun f => (promisedSuffixes g f).map (f.name, ·)

theorem mem_filterNames {p : String × String} :
    p ∈ filterNames g t ↔ ∃ f ∈ t.fields, ∃ suffix ∈ promisedSuffixes g f, p = (f.name, suffix) := by
  simp only [filterNames, List.mem_flatMap, List.mem_map]
  constructor
  · rintro ⟨f, hf, suffix, hsuffix, rfl⟩
    exact ⟨f, hf, suffix, hsuffix, rfl⟩
  · rintro ⟨f, hf, suffix, hsuffix, rfl⟩
    exact ⟨f, hf, suffix, hsuffix, rfl⟩

/-- A filter is told by its field and its ending; only the names made of both can be equal. -/
theorem nodup_filterNames (ht : TypeWellFormed t) : (filterNames g t).Nodup := by
  rw [filterNames, List.nodup_flatMap]
  refine ⟨fun f _ => (nodup_promisedSuffixes f).map fun _ _ heq => (Prod.mk.inj heq).2, ?_⟩
  refine (List.pairwise_map.mp ht.nodup_fields).imp fun {f f'} hne p hp hp' => ?_
  obtain ⟨_, _, rfl⟩ := List.mem_map.mp hp
  obtain ⟨_, _, heq⟩ := List.mem_map.mp hp'
  exact hne (Prod.mk.inj heq).1.symm

/-- The fields of a filter: one for each promised filter, and three to combine filters. -/
theorem keys_promisedWhere : (promisedWhere g t).map Prod.fst =
    (filterNames g t).map (fun p => p.1 ++ p.2) ++ ["AND", "OR", "NOT"] := by
  rw [promisedWhere, List.map_append, List.map_flatMap, filterNames, List.map_flatMap]
  congr 1
  refine List.flatMap_congr fun f _ => ?_
  rw [keys_promisedFilters, List.map_map]
  rfl

/-- The promised names are distinct exactly where the names of filters tell them apart: a name and a suffix
are known from the field. -/
theorem nodup_keys_promisedWhere_iff (ht : TypeWellFormed t) :
    ((promisedWhere g t).map Prod.fst).Nodup ↔ DistinctFilters g t := by
  rw [keys_promisedWhere, List.nodup_append, List.nodup_map_iff_inj_on (nodup_filterNames ht)]
  constructor
  · rintro ⟨hinj, -, hoperators⟩ f hf suffix hsuffix
    have hmem : (f.name, suffix) ∈ filterNames g t := mem_filterNames.mpr ⟨f, hf, suffix, hsuffix, rfl⟩
    refine ⟨fun hc => hoperators _ (List.mem_map_of_mem hmem) _ hc rfl, ?_⟩
    intro f' hf' suffix' hsuffix' heq
    have hmem' : (f'.name, suffix') ∈ filterNames g t :=
      mem_filterNames.mpr ⟨f', hf', suffix', hsuffix', rfl⟩
    exact Prod.mk.inj (hinj _ hmem _ hmem' heq)
  · intro hdistinct
    refine ⟨fun p hp p' hp' heq => ?_, by decide, fun name hname operator hoperator heq => ?_⟩
    · obtain ⟨f, hf, suffix, hsuffix, rfl⟩ := mem_filterNames.mp hp
      obtain ⟨f', hf', suffix', hsuffix', rfl⟩ := mem_filterNames.mp hp'
      obtain ⟨hfield, hsame⟩ := (hdistinct f hf suffix hsuffix).2 f' hf' suffix' hsuffix' heq
      rw [hfield, hsame]
    · obtain ⟨p, hp, rfl⟩ := List.mem_map.mp hname
      obtain ⟨f, hf, suffix, hsuffix, rfl⟩ := mem_filterNames.mp hp
      exact (hdistinct f hf suffix hsuffix).1 (heq ▸ hoperator)

end Names

/-! ## The filters of the generator -/

section Fields

variable {g : TypeGraph} (h : WellFormed g.types)

/-- The filters of a field, family after family, all of one type. -/
theorem familiesFilters_eq {ask : Ask (Except Error)} {f : ModelField} {e : TypeExpr Handle}
    (he : leafType ask f = .ok e) (families : List FilterFamily) :
    familiesFilters ask families f =
      .ok (.ofEntries (families.flatMap fun family => suffixed f.name family.suffixes (family.type e))) := by
  have hmaps : families.mapM (fun family => familyFilters ask family f) =
      .ok (families.map fun family => suffixed f.name family.suffixes (family.type e)) := by
    refine mapM_eq_ok fun family _ => ?_
    rw [familyFilters, he]
    rfl
  rw [familiesFilters, hmaps, ok_bind, FieldMap.merge_eq_ofEntries, List.flatMap_map, List.flatMap_map]
  rfl

/-- The filters of the families of a scalar are the promised ones. -/
theorem flatMap_families_scalar (name : String) (s : Scalar) :
    (FilterFamily.ofScalar s).flatMap (fun family =>
        suffixed name family.suffixes (family.type (.named (.scalar s)))) =
      (scalarSuffixes s).map fun suffix =>
        (name ++ suffix, ({ type := valueOrList suffix (.scalar s) } : InputField Handle)) := by
  cases s <;> rfl

theorem flatMap_families_enum (name : String) (x : Handle) :
    FilterFamily.ofEnum.flatMap (fun family => suffixed name family.suffixes (family.type (.named x))) =
      ["", "_not", "_in", "_not_in"].map fun suffix =>
        (name ++ suffix, ({ type := valueOrList suffix x } : InputField Handle)) :=
  rfl

include h

theorem leafType_scalar_fresh {f : ModelField} {s : Scalar} (hname : f.typeName = s.name) :
    leafType (fresh g) f = .ok (.named (.scalar s)) := by
  rw [leafType, hname, Ask.type, fresh_scalar h]
  rfl

/-- An enum that is called like a type by which schemas describe themselves cannot be used. -/
theorem leafType_enum_fresh {f : ModelField} {u : ModelType} (hu : u ∈ g.types) (henum : u.isEnum = true)
    (hname : f.typeName = u.name) :
    leafType (fresh g) f = if u.name ∈ introspectionNames then .error (.badTypeName (.reserved u.name))
      else .ok (.named (.made (.of .enum u.name))) := by
  rw [leafType, hname, Ask.type, fresh_scalar_enum h hu henum, fresh_enum h hu henum,
    make_of_typeName_eq (h.type u hu) rfl]
  split <;> rfl

/-- Fields of scalars have the promised filters, lists of scalars none. -/
theorem scalarFilters_scalar_fresh {f : ModelField} {s : Scalar} (hname : f.typeName = s.name)
    (htarget : target g f = .ok (.scalar s)) :
    scalarFilters g (fresh g) f = .ok (if f.isList then none else some (promisedFilters g f)) := by
  rw [scalarFilters, ofExcept_eq, htarget, ok_bind]
  cases hlist : f.isList with
  | true => rfl
  | false =>
    have hpromised : promisedFilters g f = (scalarSuffixes s).map fun suffix =>
        (f.name ++ suffix, { type := valueOrList suffix (.scalar s) }) := by
      simp [promisedFilters, promisedSuffixes, promisedType, htarget, hlist]
    have hnodup := nodup_keys_promisedFilters (g := g) f
    simp only [familiesFilters_eq (leafType_scalar_fresh h hname), flatMap_families_scalar,
      ← hpromised, FieldMap.ofEntries_of_nodup hnodup]
    rfl

theorem scalarFilters_enum_fresh {f : ModelField} {u : ModelType} (hu : u ∈ g.types)
    (henum : u.isEnum = true) (hname : f.typeName = u.name) (htarget : target g f = .ok (.enum u)) :
    scalarFilters g (fresh g) f = if hasTakenEnum g f then .error (.badTypeName (.reserved f.typeName))
      else .ok (if f.isList then none else some (promisedFilters g f)) := by
  have hleaf := leafType_enum_fresh h hu henum hname
  rw [scalarFilters, ofExcept_eq, htarget, ok_bind, hasTakenEnum, htarget]
  cases hlist : f.isList with
  | true => rfl
  | false =>
    by_cases htaken : u.name ∈ introspectionNames
    · rw [if_pos htaken] at hleaf
      simp [familiesFilters, familyFilters, FilterFamily.ofEnum, hleaf, htaken, hname, error_bind]
    · have hpromised : promisedFilters g f = ["", "_not", "_in", "_not_in"].map fun suffix =>
          (f.name ++ suffix, { type := valueOrList suffix (.made (.of .enum u.name)) }) := by
        simp [promisedFilters, promisedSuffixes, promisedType, htarget, hlist]
      have hnodup := nodup_keys_promisedFilters (g := g) f
      rw [if_neg htaken] at hleaf
      simp only [familiesFilters_eq hleaf, flatMap_families_enum, ← hpromised,
        FieldMap.ofEntries_of_nodup hnodup]
      simp [htaken, ok_bind, pure, Except.pure]

/-- Relations are filtered by the filter of what they point at. -/
theorem relationFilters_fresh {f : ModelField} {u : ModelType} (hu : u ∈ g.types)
    (hrelated : g.relatedType? f = some u) (htarget : target g f = .ok (.relation u)) :
    relationFilters g (fresh g) f = .ok (promisedFilters g f) := by
  have hassert : assertRelation g f = .ok () := by
    rw [assertRelation, isLeafField, htarget]
    rfl
  have hrelatedFilters : ∀ suffixes, relatedFilters g (fresh g) suffixes f =
      .ok (suffixed f.name suffixes (.named (.made (.of .whereInput u.name)))) := by
    intro suffixes
    rw [relatedFilters, hrelated]
    simp only [Ask.type, fresh_whereInput h hu]
    rfl
  rw [relationFilters, ofExcept_eq, hassert, ok_bind, manyRelationFilters, oneRelationFilters,
    hrelatedFilters, hrelatedFilters, promisedFilters, promisedSuffixes]
  simp only [promisedType, htarget]
  cases f.isList <;> rfl

variable {t : ModelType} (ht : t ∈ g.types)

include ht

/-- The filters on a field are the promised ones unless they take values of an enum whose name is taken. -/
theorem fieldFilters_fresh {f : ModelField} (hf : f ∈ t.fields) :
    fieldFilters g (fresh g) f = if hasTakenEnum g f then .error (.badTypeName (.reserved f.typeName))
      else .ok (if f.isList && isLeafOf g f then none else some (promisedFilters g f)) := by
  rw [fieldFilters, ofExcept_eq, isLeafField_of_mem h ht hf, ok_bind]
  cases hleaf : isLeafOf g f with
  | true =>
    rw [if_pos rfl, Bool.and_true]
    rcases target_of_mem h ht hf with ⟨s, hname, htarget⟩ | ⟨u, hu, hname, henum, htarget⟩ |
      ⟨u, _, _, _, _, htarget⟩
    · rw [scalarFilters_scalar_fresh h hname htarget, hasTakenEnum, htarget, if_neg Bool.false_ne_true]
    · exact scalarFilters_enum_fresh h hu henum hname htarget
    · rw [isLeafOf, htarget] at hleaf
      cases hleaf
  | false =>
    obtain ⟨u, hu, _, hrelated, htarget⟩ := target_of_isLeafOf_eq_false h ht hf hleaf
    rw [if_neg Bool.false_ne_true, relationFilters_fresh h hu hrelated htarget, hasTakenEnum, htarget,
      if_neg Bool.false_ne_true, Bool.and_false, if_neg Bool.false_ne_true]
    rfl

omit h ht in
theorem promisedFilters_of_isList {f : ModelField} (hlist : f.isList = true) (hleaf : isLeafOf g f = true) :
    promisedFilters g f = [] := by
  rw [promisedFilters, promisedSuffixes]
  rcases target_of_isLeafOf hleaf with ⟨s, htarget⟩ | ⟨u, htarget⟩
  · simp [htarget, hlist]
  · simp [htarget, hlist]

/-- The fields of a filter input are the promised ones, written in order. -/
theorem whereFields_eq_ok_iff {fields : FieldMap (InputField Handle)} :
    whereFields g (fresh g) t = .ok fields ↔
      (∀ f ∈ t.fields, hasTakenEnum g f = false) ∧ fields = .ofEntries (promisedWhere g t) := by
  have hfree : ∀ {blocks}, t.fields.mapM (fieldFilters g (fresh g)) = .ok blocks →
      ∀ f ∈ t.fields, hasTakenEnum g f = false := by
    intro blocks hblocks f hf
    obtain ⟨block, hblock⟩ := exists_of_mapM_eq_ok hblocks hf
    cases htaken : hasTakenEnum g f with
    | false => rfl
    | true =>
      rw [fieldFilters_fresh h ht hf, if_pos htaken] at hblock
      cases hblock
  -- Lists of scalars have no filters, so leaving their maps out changes nothing.
  have hfields : (∀ f ∈ t.fields, hasTakenEnum g f = false) →
      whereFields g (fresh g) t = .ok (.ofEntries (promisedWhere g t)) := by
    intro htaken
    have hblocks : t.fields.mapM (fieldFilters g (fresh g)) = .ok (t.fields.map fun f =>
        if f.isList && isLeafOf g f then none else some (promisedFilters g f)) := by
      refine mapM_eq_ok fun f hf => ?_
      rw [fieldFilters_fresh h ht hf, htaken f hf, if_neg Bool.false_ne_true]
    have hflat : ∀ f : ModelField, (if f.isList && isLeafOf g f then none
        else some (promisedFilters g f)).getD [] = promisedFilters g f := by
      intro f
      split
      · rename_i hskipped
        rw [Bool.and_eq_true] at hskipped
        rw [promisedFilters_of_isList hskipped.1 hskipped.2]
        rfl
      · rfl
    have hoperators : suffixed "" logicalOperators (listOf (.named (.made (.of .whereInput t.name)))) =
        promisedOperators t := rfl
    rw [whereFields, hblocks, ok_bind, Ask.type, fresh_whereInput h ht]
    simp only [ok_bind, Option.getD_some, hoperators, FieldMap.merge_eq_ofEntries, List.flatMap_append,
      List.flatMap_map, hflat, List.flatMap_singleton, promisedWhere, pure, Except.pure]
  constructor
  · intro hok
    obtain ⟨blocks, hblocks, _⟩ := bind_eq_ok_iff.mp hok
    rw [hfields (hfree hblocks)] at hok
    exact ⟨hfree hblocks, (Except.ok.inj hok).symm⟩
  · rintro ⟨htaken, rfl⟩
    exact hfields htaken

end Fields

/-! ## Main result -/

/--
At any time of a run, the filter input of a type has the promised filters and then the operators, in order,
exactly where the names of the filters tell them apart.

In all other cases no promised name is missing, but a name that is promised twice has one field: the first
place and the last type of those promised. There is no input at all where a filter takes values of an enum
called like a type by which schemas describe themselves.
-/
theorem filterFields_iff {database : Database} {source : List Char} {types : List ModelType}
    (h : parse database source = .ok types) {t : ModelType} (ht : t ∈ types) (henum : t.isEnum = false)
    {c : Cache} (hc : c.Reached (.ofTypes types)) :
    (((define (.ofTypes types) (answer (.ofTypes types)) (.made (.of .whereInput t.name))).run c).1 =
        .ok { name := t.name ++ "WhereInput", body := .inputObject (promisedWhere (.ofTypes types) t) } ↔
      (∀ f ∈ t.fields, hasTakenEnum (.ofTypes types) f = false) ∧ DistinctFilters (.ofTypes types) t) ∧
    (∀ d, ((define (.ofTypes types) (answer (.ofTypes types)) (.made (.of .whereInput t.name))).run c).1 =
        .ok d ↔
      (∀ f ∈ t.fields, hasTakenEnum (.ofTypes types) f = false) ∧
        d = {
          name := t.name ++ "WhereInput"
          body := .inputObject (.ofEntries (promisedWhere (.ofTypes types) t)) }) ∧
    ∀ name, FieldMap.find? name (.ofEntries (promisedWhere (.ofTypes types) t)) =
      (promisedWhere (.ofTypes types) t).reverse.lookup name := by
  have hwf := (wellFormed_of_parse h).ofTypes
  have hmem : t ∈ (TypeGraph.ofTypes types).types := by
    rw [TypeGraph.types_ofTypes (wellFormed_of_parse h).nodup_names]
    exact ht
  have hdefine : ∀ d,
      ((define (.ofTypes types) (answer (.ofTypes types)) (.made (.of .whereInput t.name))).run c).1 =
        .ok d ↔
      (∀ f ∈ t.fields, hasTakenEnum (.ofTypes types) f = false) ∧
        d = {
          name := t.name ++ "WhereInput"
          body := .inputObject (.ofEntries (promisedWhere (.ofTypes types) t)) } := by
    intro d
    have hfields : ∀ {fields}, inputFields (.ofTypes types) (fresh (.ofTypes types))
        (.of .whereInput t.name) t = .ok fields ↔ _ := whereFields_eq_ok_iff hwf hmem
    rw [run_define hc, define_input_eq_ok_iff hwf hmem henum (r := .of .whereInput t.name) rfl rfl]
    simp only [hfields]
    constructor
    · rintro ⟨_, ⟨hfree, rfl⟩, hd⟩
      exact ⟨hfree, hd⟩
    · rintro ⟨hfree, hd⟩
      exact ⟨_, ⟨hfree, rfl⟩, hd⟩
  refine ⟨?_, hdefine, FieldMap.find?_ofEntries⟩
  rw [hdefine, ← nodup_keys_promisedWhere_iff (hwf.type t hmem), ← FieldMap.ofEntries_eq_self_iff]
  refine and_congr_right fun _ => ?_
  rw [NamedType.mk.injEq, TypeBody.inputObject.injEq]
  exact ⟨fun hd => hd.2.2.1.symm, fun hself => ⟨rfl, rfl, hself.symm, rfl⟩⟩

/-- A type with a text, a value of an enum and many related items. -/
def author : ModelType where
  name := "Author"
  fields :=
    [{ name := "name", typeName := "String" }, { name := "mood", typeName := "Mood" },
     { name := "posts", typeName := "Post", isList := true }]

/-- A type with an untyped value. -/
def post : ModelType where
  name := "Post"
  fields := [{ name := "data", typeName := "Json" }]

/-- An enum of one value. -/
def mood : ModelType where
  name := "Mood"
  isEnum := true
  values := ["GOOD"]

/-- The filters of the authors. -/
theorem filterFields_author :
    parse .relational
        "type Author { name: String mood: Mood posts: [Post] } type Post { data: Json } enum Mood { GOOD }".toList =
      .ok [author, post, mood] ∧
    author ∈ [author, post, mood] ∧ author.isEnum = false ∧
    Cache.Reached (.ofTypes [author, post, mood]) {} ∧
    (((define (.ofTypes [author, post, mood]) (answer (.ofTypes [author, post, mood]))
          (.made (.of .whereInput author.name))).run {}).1 =
        .ok {
          name := author.name ++ "WhereInput"
          body := .inputObject (promisedWhere (.ofTypes [author, post, mood]) author) } ↔
      (∀ f ∈ author.fields, hasTakenEnum (.ofTypes [author, post, mood]) f = false) ∧
        DistinctFilters (.ofTypes [author, post, mood]) author) := by
  have hparse : parse .relational
      "type Author { name: String mood: Mood posts: [Post] } type Post { data: Json } enum Mood { GOOD }".toList =
    .ok [author, post, mood] := rfl
  have hmem : author ∈ [author, post, mood] := List.mem_cons_self
  exact ⟨hparse, hmem, rfl, .start, (filterFields_iff hparse hmem rfl .start).1⟩

/-- A type with a field that is called like a filter on another one. -/
def overlapping : ModelType where
  name := "A"
  fields := [{ name := "name", typeName := "String" }, { name := "name_not", typeName := "Boolean" }]

/-- The filter for other names is gone: a filter on another field stands in its place. -/
theorem filter_replaced :
    parse .relational "type A { name: String name_not: Boolean }".toList = .ok [overlapping] ∧
    ∃ fields, ((define (.ofTypes [overlapping]) (answer (.ofTypes [overlapping]))
        (.made (.of .whereInput "A"))).run {}).1 =
      .ok { name := "AWhereInput", body := .inputObject fields } ∧
    ("name_not", { type := .named (.scalar .string) }) ∈
      promisedWhere (.ofTypes [overlapping]) overlapping ∧
    ("name_not", { type := .named (.scalar .string) }) ∉ fields ∧
    ("name_not", { type := .named (.scalar .boolean) }) ∈ fields := by
  refine ⟨rfl, .ofEntries (promisedWhere (.ofTypes [overlapping]) overlapping), ?_, ?_, ?_, ?_⟩
  · decide +kernel
  · decide +kernel
  · decide +kernel
  · decide +kernel

end OpenCrud.Generate
