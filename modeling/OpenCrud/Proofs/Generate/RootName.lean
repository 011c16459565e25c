import OpenCrud.Generate.Root
import OpenCrud.Proofs.Generate.TypeName
import OpenCrud.Proofs.Naming

/-!
# Names of root fields

The names of the root fields of a model are names. The three queries of a model have three names, and its six
mutations have six. None but the query for one item can be called `node`.

The fields of different models keep apart because every root field has one owner (`nodup_keys_blocks`).
-/

namespace OpenCrud.Generate

open Datamodel Naming

section Names

variable {n : String} (h : isName n.toList = true)

theorem toList_oneQueryName (n : String) : (oneQueryName n).toList = lowerFirstChars n.toList :=
  String.toList_ofList

theorem toList_manyQueryName (n : String) :
    (manyQueryName n).toList = lowerFirstChars (pluralName n).toList :=
  String.toList_ofList

theorem toList_manyMutationName (verb n : String) :
    (manyMutationName verb n).toList = verb.toList ++ upperFirstChars (pluralName n).toList := by
  rw [manyMutationName, String.toList_append, upperFirst, String.toList_ofList]

include h

/-! ## Names -/

/-- Making the first letter small keeps a name a name. -/
theorem isName_oneQueryName : isName (oneQueryName n).toList = true := by
  rw [toList_oneQueryName]
  exact isName_lowerFirstChars h

theorem isName_manyQueryName : isName (manyQueryName n).toList = true := by
  rw [toList_manyQueryName]
  exact isName_lowerFirstChars (isName_pluralName h)

theorem isName_connectionQueryName : isName (connectionQueryName n).toList = true :=
  isName_append (isName_manyQueryName h) (by decide)

theorem isName_manyMutationName {verb : String} (hverb : isName verb.toList = true) :
    isName (manyMutationName verb n).toList = true := by
  refine isName_append hverb ?_
  rw [upperFirst, String.toList_ofList]
  exact all_upperFirstChars (all_of_isName (isName_pluralName h))

/-! ## Queries -/

theorem lower_oneQueryName : Text.lower (oneQueryName n).toList = Text.lower n.toList := by
  rw [toList_oneQueryName, lower_lowerFirstChars (all_of_isName h)]

/-- But for the case of letters, the query for many items has the plural of the name. -/
theorem lower_manyQueryName :
    Text.lower (manyQueryName n).toList = Text.lower (pluralName n).toList := by
  rw [toList_manyQueryName, lower_lowerFirstChars (all_of_isName (isName_pluralName h))]

theorem length_oneQueryName : (oneQueryName n).toList.length = n.toList.length := by
  rw [← length_lower (all_of_isName (isName_oneQueryName h)), lower_oneQueryName h,
    length_lower (all_of_isName h)]

theorem length_manyQueryName : (manyQueryName n).toList.length = (pluralName n).toList.length := by
  rw [← length_lower (all_of_isName (isName_manyQueryName h)), lower_manyQueryName h,
    length_lower (all_of_isName (isName_pluralName h))]

omit h in
/-- The ending of the query for pages has ten letters. -/
theorem length_connectionQueryName :
    (connectionQueryName n).toList.length = (manyQueryName n).toList.length + 10 := by
  rw [connectionQueryName, String.toList_append, List.length_append]
  rfl

/-- A plural differs from its singular by more than the case of letters. -/
theorem oneQueryName_ne_manyQueryName : oneQueryName n ≠ manyQueryName n := by
  intro hc
  refine lower_pluralName_ne h ?_
  rw [← lower_manyQueryName h, ← lower_oneQueryName h, hc]

/-- A plural is at most one letter shorter than the name, so an ending makes up for it. -/
theorem oneQueryName_ne_connectionQueryName : oneQueryName n ≠ connectionQueryName n := by
  intro hc
  have hlength := congrArg (·.toList.length) hc
  simp only [length_oneQueryName h, length_connectionQueryName, length_manyQueryName h] at hlength
  have hplural := length_le_pluralName h
  omega

omit h in
/-- The two names differ in length. -/
theorem manyQueryName_ne_connectionQueryName : manyQueryName n ≠ connectionQueryName n := by
  intro hc
  have hlength := congrArg (·.toList.length) hc
  simp only [length_connectionQueryName] at hlength
  omega

/-- No plural is the word node, whatever the case of its letters. -/
theorem manyQueryName_ne_node : manyQueryName n ≠ "node" := by
  intro hc
  have hnode : Text.lower "node".toList = "node".toList := by decide
  refine lower_pluralName_ne_node h ?_
  rw [← lower_manyQueryName h, hc, hnode]

omit h in
theorem connectionQueryName_ne_node : connectionQueryName n ≠ "node" := by
  intro hc
  have hlength := congrArg (·.toList.length) hc
  simp only [length_connectionQueryName] at hlength
  exact absurd hlength (by simp)

/-! ## Mutations -/

/-- The ending `Many` makes up for a plural that is a letter shorter. -/
theorem append_ne_manyMutationName (verb : String) : verb ++ n ≠ manyMutationName (verb ++ "Many") n := by
  intro hc
  have hlength := congrArg (·.toList.length) hc
  have hmany : "Many".toList.length = 4 := rfl
  simp only [toList_manyMutationName, String.toList_append, List.length_append,
    length_upperFirstChars (all_of_isName (isName_pluralName h)), hmany] at hlength
  have hplural := length_le_pluralName h
  omega

omit h in
/-- Names that start with two verbs, none of which starts the other, differ. -/
theorem append_ne_append {v v' : String} (hv : ¬v.toList <+: v'.toList) (hv' : ¬v'.toList <+: v.toList)
    (a b : String) : v ++ a ≠ v' ++ b := by
  intro hc
  have hlist : v.toList ++ a.toList = v'.toList ++ b.toList := by
    rw [← String.toList_append, ← String.toList_append, hc]
  rcases List.prefix_or_prefix_of_prefix (List.prefix_append v.toList a.toList)
    (hlist ▸ List.prefix_append v'.toList b.toList) with hprefix | hprefix
  · exact hv hprefix
  · exact hv' hprefix

/-- The names of the mutations of a model. -/
def mutationNames (n : String) : List String :=
  ["create" ++ n, "update" ++ n, manyMutationName "updateMany" n, "upsert" ++ n, "delete" ++ n,
   manyMutationName "deleteMany" n]

/-- Different verbs do not begin alike, and what is done to many items differs from what is done to one. -/
theorem nodup_mutationNames : (mutationNames n).Nodup := by
  have hupdate : "update" ++ n ≠ manyMutationName "updateMany" n := append_ne_manyMutationName h "update"
  have hdelete : "delete" ++ n ≠ manyMutationName "deleteMany" n := append_ne_manyMutationName h "delete"
  simp only [mutationNames, List.nodup_cons, List.mem_cons, List.not_mem_nil, or_false, not_or,
    not_false_eq_true, List.nodup_nil, and_true]
  exact ⟨⟨append_ne_append (by decide) (by decide) _ _, append_ne_append (by decide) (by decide) _ _,
      append_ne_append (by decide) (by decide) _ _, append_ne_append (by decide) (by decide) _ _,
      append_ne_append (by decide) (by decide) _ _⟩,
    ⟨hupdate, append_ne_append (by decide) (by decide) _ _, append_ne_append (by decide) (by decide) _ _,
      append_ne_append (by decide) (by decide) _ _⟩,
    ⟨append_ne_append (by decide) (by decide) _ _, append_ne_append (by decide) (by decide) _ _,
      append_ne_append (by decide) (by decide) _ _⟩,
    ⟨append_ne_append (by decide) (by decide) _ _, append_ne_append (by decide) (by decide) _ _⟩,
    hdelete⟩

end Names

/-! ## Root fields of all models -/

/-- No root field of a model takes the place of another one: two models that share a field would both
own it. -/
theorem nodup_keys_blocks {α : Type} {g : TypeGraph} (h : WellFormed g.types) {root : Root}
    {block : ModelType → FieldMap α} (hnodup : ∀ t ∈ g.types, ((block t).map Prod.fst).Nodup)
    (hclaimed : ∀ t, ∀ key ∈ (block t).map Prod.fst, (root, key) ∈ claimedFields t.name) :
    ((g.models.flatMap block).map Prod.fst).Nodup := by
  have hnames : (g.models.map (·.name)).Nodup :=
    h.nodup_names.sublist ((List.filter_sublist).map _)
  have hclaim : ∀ t ∈ g.models, ∀ key ∈ (block t).map Prod.fst,
      { root, field := key, owner := t.name } ∈ claims g.types := fun t ht key hkey =>
    List.mem_flatMap.mpr ⟨t, ht, List.mem_map.mpr ⟨(root, key), hclaimed t key hkey, rfl⟩⟩
  rw [List.map_flatMap, List.nodup_flatMap]
  refine ⟨fun t ht => hnodup t (List.mem_filter.mp ht).1, ?_⟩
  refine (List.pairwise_map.mp hnames).imp_of_mem fun {t u} ht hu hne key hkey hkey' => ?_
  exact hne (h.owner_eq _ (hclaim t ht key hkey) _ (hclaim u hu key hkey') rfl rfl)

end OpenCrud.Generate
