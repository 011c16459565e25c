import OpenCrud.Client.Source
import OpenCrud.Proofs.Client.Delegates

/-!
# The existence checks of a client

A client offers to check for items wherever a query gives a list and takes a filter: it knows the models from the
shapes of the queries alone. Main result: these are the models of the datamodel, each once and in order, with their
own filters (`checksModels_of_parse`).

A query for many items is never overwritten, since no plural is the name of another query. The queries for one item
and for pages give no lists, and neither does the query for an item of any model.
-/

namespace OpenCrud.Client

open Datamodel Generate

/-! ## What is checked -/

/-- The line by which a client asks whether there is an item of a model. -/
def checkLine (model : String) : Language → String
  | .typescript => "  " ++ model ++ ": (where?: " ++ model ++ "WhereInput) => Promise<boolean>"
  | .flow => "  " ++ model ++ "(where?: " ++ model ++ "WhereInput): Promise<boolean>;"

/-- That a client checks for items of every model and of nothing else, in the order of the datamodel. -/
structure ChecksModels (types : List ModelType) (s : Schema) : Prop where
  pairs : filteredTypes (rootFields s s.query) =
    (types.filter (·.isModel)).map fun t => (t.name, t.name ++ "WhereInput")
  nodup : ((filteredTypes (rootFields s s.query)).map Prod.fst).Nodup
  lines : ∀ language, existenceChecks language s =
    "\n".intercalate ((types.filter (·.isModel)).map fun t => checkLine t.name language)
  shown : ∀ language metadata options, ∃ rest, source language s metadata options =
    language.head ++ language.imports ++ "\n\n" ++ "export interface Exists \x7b\n" ++
      existenceChecks language s ++ "\n\x7d\n\n" ++ rest

theorem existsEntry_whereInput (language : Language) (model : String) :
    language.existsEntry model (model ++ "WhereInput") = checkLine model language := by
  cases language with
  | typescript => simp only [Language.existsEntry, checkLine, String.append_assoc]; rfl
  | flow => simp only [Language.existsEntry, checkLine, String.append_assoc]; rfl

theorem existenceChecks_eq (language : Language) (s : Schema) : existenceChecks language s =
    "\n".intercalate ((filteredTypes (rootFields s s.query)).map fun pair =>
      language.existsEntry pair.1 pair.2) := by
  rw [existenceChecks, rootFields]
  cases s.root? s.query with
  | none => rfl
  | some t => rfl

theorem exists_source_eq (language : Language) (s : Schema) (types : List ModelType) (options : ClientOptions) :
    ∃ rest, source language s types options =
      language.head ++ language.imports ++ "\n\n" ++ "export interface Exists \x7b\n" ++
        existenceChecks language s ++ "\n\x7d\n\n" ++ rest := by
  delta source
  simp only [String.append_assoc]
  exact ⟨_, rfl⟩

/-! ## Queries that are checked -/

section Queries

variable {g : TypeGraph}

/-- Of the queries that a model is promised only the one for many items gives a list. -/
theorem filterMap_promisedOf (t : ModelType) :
    (promisedOf g t).filterMap (fun entry => filteredType? (entry.2.map Handle.name)) =
      [(t.name, t.name ++ "WhereInput")] := by
  unfold promisedOf
  cases hasUniqueLeaf g t with
  | true => rfl
  | false => rfl

theorem filterMap_models : (g.models.flatMap (promisedOf g)).filterMap
      (fun entry => filteredType? (entry.2.map Handle.name)) =
    g.models.map fun t => (t.name, t.name ++ "WhereInput") := by
  induction g.models with
  | nil => rfl
  | cons t rest ih => rw [List.flatMap_cons, List.filterMap_append, filterMap_promisedOf, ih]; rfl

variable (h : WellFormed g.types)

include h

/-- What is called like the query for an item of any model is no list. -/
theorem filteredType?_node {entry : String × OutputField Handle} (hentry : entry ∈ g.models.flatMap (promisedOf g))
    (hkey : entry.1 = "node") : filteredType? (entry.2.map Handle.name) = none := by
  obtain ⟨t, ht, hentry⟩ := List.mem_flatMap.mp hentry
  have hname := (h.type t (List.mem_filter.mp ht).1).isName_name
  simp only [promisedOf, List.mem_append, List.mem_singleton] at hentry
  rcases hentry with (rfl | hentry) | rfl
  · exact absurd hkey (manyQueryName_ne_node hname)
  · split at hentry
    · rw [List.mem_singleton.mp hentry]
      rfl
    · cases hentry
  · rfl

theorem filteredTypes_rootFields {s : Schema} (hs : Assembled g s) :
    filteredTypes (rootFields s s.query) = g.models.map fun t => (t.name, t.name ++ "WhereInput") := by
  rw [rootFields_query h hs, filteredTypes, List.filterMap_map]
  show (queriesOf g).filterMap (fun entry => filteredType? (entry.2.map Handle.name)) = _
  rw [← filterMap_models, queriesOf]
  split
  · exact FieldMap.filterMap_insert (p := fun field : OutputField Handle => filteredType? (field.map Handle.name))
      rfl fun _ => filteredType?_node h
  · rfl

end Queries

/-! ## Main result -/

/-- A client of a datamodel checks for items of exactly its models. -/
theorem checksModels_of_parse {database : Database} {source : List Char} {types : List ModelType}
    (h : parse database source = .ok types) {s : Schema} (hs : schema (.ofTypes types) = .ok s) :
    ChecksModels types s := by
  have hwf := wellFormed_of_parse h
  rw [schema_eq_assemble] at hs
  have hpairs : filteredTypes (rootFields s s.query) =
      (types.filter (·.isModel)).map fun t => (t.name, t.name ++ "WhereInput") := by
    rw [filteredTypes_rootFields hwf.ofTypes (assembled_of_eq_ok hwf.ofTypes hs),
      TypeGraph.models_ofTypes hwf.nodup_names]
  refine ⟨hpairs, ?_, fun language => ?_, fun language types options => exists_source_eq language s types options⟩
  · rw [hpairs, List.map_map]
    exact hwf.nodup_names.sublist (List.filter_sublist.map _)
  · rw [existenceChecks_eq, hpairs, List.map_map]
    congr 1
    exact List.map_congr_left fun t _ => existsEntry_whereInput language t.name

/-- A model called `node` whose query for one item is overwritten, with an enum and an embedded type. -/
def nodeSource : List Char :=
  "enum Kind { LEAF } type node { id: ID! @id at: Place kind: Kind } ".toList ++
    "type Place @embedded { name: String } type Tree { id: ID! @id nodes: [node] }".toList

theorem checksModels_node : ∃ types s, parse .document nodeSource = .ok types ∧
    schema (.ofTypes types) = .ok s ∧ ChecksModels types s := by
  obtain ⟨types, s, hparse, hs⟩ : ∃ types s, parse .document nodeSource = .ok types ∧
      schema (.ofTypes types) = .ok s :=
    exists_schema_of_isOk (by decide +kernel)
  exact ⟨types, s, hparse, hs, checksModels_of_parse hparse hs⟩

end OpenCrud.Client
