import OpenCrud.Generate.KeyText
import OpenCrud.Scalar

/-!
# Requests for generated types

Every type of a generated schema answers a request: for a kind of type, made from a type of the datamodel
or from a scalar's name, with arguments. Two requests with the same key have the same answer.
-/

namespace OpenCrud.Generate

/-- The kinds of types that can be asked for. -/
inductive Kind where
  | scalar
  | enum
  | object
  | node
  | pageInfo
  | batchPayload
  | edge
  | aggregate
  | connection
  | whereInput
  | whereUnique
  | orderBy
  | create
  | createOne
  | createMany
  | update
  | updateOne
  | updateMany
  | updateWithWhereUnique
  | upsertNested
  | updateManyMutation
  | query
  | mutation
  deriving DecidableEq, Repr

/-- The name of a kind in cache keys. -/
def Kind.label : Kind → String
  | .scalar => "scalar"
  | .enum => "enum"
  | .object => "object"
  | .node => "node"
  | .pageInfo => "page_info"
  | .batchPayload => "batch_payload"
  | .edge => "edge"
  | .aggregate => "aggregate"
  | .connection => "connection"
  | .whereInput => "where"
  | .whereUnique => "where_unique"
  | .orderBy => "order_by"
  | .create => "create"
  | .createOne => "create_one"
  | .createMany => "create_many"
  | .update => "update"
  | .updateOne => "update_one"
  | .updateMany => "update_many"
  | .updateWithWhereUnique => "update_with_where_unique_nested"
  | .upsertNested => "upsert_nested"
  | .updateManyMutation => "update_many_mutation"
  | .query => "query"
  | .mutation => "mutation"

/-- The arguments of a request: their text, and the two of them that a kind of type depends on. -/
structure Args where
  text : String
  nested : Bool := false
  required : Bool := false
  deriving DecidableEq, Repr

namespace Args

/-- The arguments with these entries. -/
def ofEntries (entries : List (String × Value)) : Args where
  text := (Value.object entries).keyText
  nested := (entries.lookup "nested").any Value.isTruthy
  required := (entries.lookup "required").any Value.isTruthy

/-- No arguments. -/
def none : Args where
  text := "\x7b\x7d"

/-- The argument of an update nested in another mutation. -/
def isNested : Args where
  text := "\x7b\"nested\": true\x7d"
  nested := true

/-- The argument that tells whether a relation is required. -/
def ofRequired (required : Bool) : Args where
  text := "\x7b\"required\": " ++ (if required then "true" else "false") ++ "\x7d"
  required

end Args

/-- A request. The subject is the name of a type of the datamodel or of a scalar; kinds of types that exist
once per schema have none. -/
structure Request where
  kind : Kind
  subject : String
  args : Args
  deriving DecidableEq, Repr

namespace Request

/-- A request without arguments. -/
def of (kind : Kind) (subject : String) : Request := ⟨kind, subject, .none⟩

/-- A request for a type that exists once per schema. -/
def shared (kind : Kind) : Request := of kind ""

/-- The name of the type that answers a request. -/
def typeName (r : Request) : String :=
  match r.kind with
  | .scalar | .enum | .object => r.subject
  | .node => "Node"
  | .pageInfo => "PageInfo"
  | .batchPayload => "BatchPayload"
  | .edge => r.subject ++ "Edge"
  | .aggregate => "Aggregate" ++ r.subject
  | .connection => r.subject ++ "Connection"
  | .whereInput => r.subject ++ "WhereInput"
  | .whereUnique => r.subject ++ "WhereUniqueInput"
  | .orderBy => r.subject ++ "OrderByInput"
  | .create => r.subject ++ "CreateInput"
  | .createOne => r.subject ++ "CreateOneInput"
  | .createMany => r.subject ++ "CreateManyInput"
  | .update => r.subject ++ (if r.args.nested then "UpdateDataInput" else "UpdateInput")
  | .updateOne => r.subject ++ (if r.args.required then "UpdateOneRequiredInput" else "UpdateOneInput")
  | .updateMany => r.subject ++ "UpdateManyInput"
  | .updateWithWhereUnique => r.subject ++ "UpdateWithWhereUniqueNestedInput"
  | .upsertNested => r.subject ++ "UpsertNestedInput"
  | .updateManyMutation => r.subject ++ "UpdateManyMutationInput"
  | .query => "Query"
  | .mutation => "Mutation"

end Request

/-- The key under which the answer to a request is kept. -/
structure Key where
  kind : Kind
  typeName : String
  args : String
  deriving DecidableEq, Repr

/-- The key of a request. -/
def Request.key (r : Request) : Key := ⟨r.kind, r.typeName, r.args.text⟩

/-- A type of a run: a scalar that every run shares, or the type made for a request. `absent` stands where
a type is used that does not exist, such as an enum without values. -/
inductive Handle where
  | scalar (s : Scalar)
  | made (r : Request)
  | absent
  deriving DecidableEq, Repr

/-- The name of the type behind a handle. -/
def Handle.name : Handle → String
  | .scalar s => s.name
  | .made r => r.typeName
  | .absent => "None"

end OpenCrud.Generate
