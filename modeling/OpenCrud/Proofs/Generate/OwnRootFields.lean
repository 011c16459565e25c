import OpenCrud.Proofs.FieldMap
import OpenCrud.Proofs.Generate.RootName

/-!
# The root fields of one model

The check of root fields compares what different models claim, so it says nothing on the fields of a single model.
Main result: a model needs no such check, because its three queries have three names and its six mutations six,
whatever its name is (`rootFields_of_model`). So in every run, whichever inputs exist, no root field of a model
is written over another one of the model.
-/

namespace OpenCrud.Generate

open Datamodel Naming

/-! ## Names -/

section Names

variable {n : String} (h : isName n.toList = true)

/-- The names of the queries of a model. -/
def queryNames (n : String) : List String := [oneQueryName n, manyQueryName n, connectionQueryName n]

include h

theorem nodup_queryNames : (queryNames n).Nodup := by
  simp only [queryNames, List.nodup_cons, List.mem_cons, List.not_mem_nil, or_false, not_or, not_false_eq_true,
    List.nodup_nil, and_true]
  exact ⟨⟨oneQueryName_ne_manyQueryName h, oneQueryName_ne_connectionQueryName h⟩,
    manyQueryName_ne_connectionQueryName⟩

omit h in
/-- A model claims its queries and its mutations. -/
theorem claimedFields_eq :
    claimedFields n = (queryNames n).map (.query, ·) ++ (mutationNames n).map (.mutation, ·) := rfl

/-- A model claims no root field twice. -/
theorem nodup_claimedFields : (claimedFields n).Nodup := by
  have hpair : ∀ root : Root, Function.Injective (Prod.mk root : String → Root × String) :=
    fun root _ _ heq => (Prod.mk.inj heq).2
  rw [claimedFields_eq, List.nodup_append]
  refine ⟨(nodup_queryNames h).map (hpair _), (nodup_mutationNames h).map (hpair _), ?_⟩
  intro a ha b hb heq
  obtain ⟨_, _, rfl⟩ := List.mem_map.mp ha
  obtain ⟨_, _, rfl⟩ := List.mem_map.mp hb
  cases heq

end Names

/-! ## Fields -/

/-- The queries of a model in the order in which they are written, given what they refer to. -/
def queryEntries (model : String) (object connection : Handle) (unique : Option Handle)
    (args pageArgs : FieldMap (InputField Handle)) : List (String × OutputField Handle) :=
  (manyQueryName model, { type := .nonNull (.list (.named object)), args })
  :: ifMade unique (fun input =>
    (oneQueryName model, { type := .named object, args := [requiredArg "where" input] }))
  ++ [(connectionQueryName model, { type := .nonNull (.named connection), args := pageArgs })]

section Fields

variable {n : String} (h : isName n.toList = true)

include h

theorem ofEntries_queryEntries (object connection : Handle) (unique : Option Handle)
    (args pageArgs : FieldMap (InputField Handle)) :
    FieldMap.ofEntries (queryEntries n object connection unique args pageArgs) =
      queryEntries n object connection unique args pageArgs := by
  have hone := oneQueryName_ne_manyQueryName h
  have hpage := oneQueryName_ne_connectionQueryName h
  have hmany : manyQueryName n ≠ connectionQueryName n := manyQueryName_ne_connectionQueryName
  refine FieldMap.ofEntries_of_nodup ?_
  cases unique with
  | none => simp [queryEntries, ifMade, hmany]
  | some input => simp [queryEntries, ifMade, hone.symm, hpage, hmany]

omit h in
/-- A mutation is left out or has its own name. -/
theorem keys_mutationFields_sublist (object batch : Handle) (inputs : MutationInputs) :
    List.Sublist ((mutationFields n object batch inputs).map Prod.fst) (mutationNames n) := by
  have hmade : ∀ {α : Type} (made : Option α) (key : String) (field : α → OutputField Handle),
      List.Sublist ((ifMade made fun x => (key, field x)).map Prod.fst) [key] := by
    intro α made key field
    cases made with
    | none => exact List.nil_sublist _
    | some x => exact List.Sublist.refl _
  have hnames : mutationNames n = ["create" ++ n] ++ (["update" ++ n] ++ ([manyMutationName "updateMany" n] ++
      (["upsert" ++ n] ++ (["delete" ++ n] ++ [manyMutationName "deleteMany" n])))) := rfl
  simp only [mutationFields, hnames, List.flatten_cons, List.flatten_nil, List.append_nil, List.map_append]
  exact (List.Sublist.refl _).append <| (hmade _ _ _).append <| (hmade _ _ _).append <|
    (hmade _ _ _).append <| (hmade _ _ _).append (List.Sublist.refl _)

theorem ofEntries_mutationFields (object batch : Handle) (inputs : MutationInputs) :
    FieldMap.ofEntries (mutationFields n object batch inputs) = mutationFields n object batch inputs :=
  FieldMap.ofEntries_of_nodup ((nodup_mutationNames h).sublist (keys_mutationFields_sublist _ _ _))

end Fields

/-! ## Main result -/

/--
The root fields of a model have different names, and all that are written are there in the end.

This holds of every name and of every way in which the requests for inputs are answered.
-/
theorem rootFields_of_model {n : String} (h : isName n.toList = true) :
    [lowerFirst n, lowerFirst (pluralName n), lowerFirst (pluralName n) ++ "Connection"].Nodup ∧
    ["create" ++ n, "update" ++ n, "updateMany" ++ upperFirst (pluralName n), "upsert" ++ n, "delete" ++ n,
      "deleteMany" ++ upperFirst (pluralName n)].Nodup ∧
    (claimedFields n).Nodup ∧
    ∀ {m : Type → Type} [Monad m] (ask : Ask m),
      modelQueries ask n = (do
        let object ← ask.type (.of .object n)
        let args ← manyArgs ask n
        let unique ← ask (.of .whereUnique n)
        let connection ← ask.type (.of .connection n)
        let pageArgs ← manyArgs ask n
        return queryEntries n object connection unique args pageArgs) ∧
      modelMutations ask n = (do
        let object ← ask.type (.of .object n)
        let batch ← ask.type (.shared .batchPayload)
        let inputs ← mutationInputs ask n
        return mutationFields n object batch inputs) := by
  refine ⟨nodup_queryNames h, nodup_mutationNames h, nodup_claimedFields h, fun {m} _ ask => ⟨?_, ?_⟩⟩
  · have hwritten : modelQueries ask n = (do
        let object ← ask.type (.of .object n)
        let args ← manyArgs ask n
        let unique ← ask (.of .whereUnique n)
        let connection ← ask.type (.of .connection n)
        let pageArgs ← manyArgs ask n
        return .ofEntries (queryEntries n object connection unique args pageArgs)) := rfl
    simp only [hwritten, ofEntries_queryEntries h]
  · simp only [modelMutations, ofEntries_mutationFields h]

/-- A word that is its own plural, behind another word. -/
theorem rootFields_of_model_bigData : isName "BigData".toList = true ∧
    [lowerFirst "BigData", lowerFirst (pluralName "BigData"),
      lowerFirst (pluralName "BigData") ++ "Connection"].Nodup ∧
    (claimedFields "BigData").Nodup :=
  have h := rootFields_of_model (n := "BigData") (by decide)
  ⟨by decide, h.1, h.2.2.1⟩

end OpenCrud.Generate
