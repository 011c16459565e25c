import OpenCrud.Generate.Input
import OpenCrud.Generate.Root

/-!
# Building types

Answering a request decides whether there is such a type and checks its name; the parts of the type are
worked out when somebody looks at them, so types can refer to each other in circles. The values of an enum
come last: their names are looked at only when the enum is printed.

`build` and `define` ask for the types that they mention. `build` asks only for kinds of types whose own
answers ask for less, so two levels of asking answer every request.
-/

namespace OpenCrud.Generate

open MonadExcept (ofExcept)

section Build

variable {m : Type → Type} [Monad m] [MonadExceptOf Error m] (g : TypeGraph) (ask : Ask m)

/-! ## Answers -/

/-- The type that a request is made from. -/
def subject (r : Request) : Except Error ModelType :=
  match g.find? r.subject with
  | some t => .ok t
  | none => .error (.unknownType r.subject)

/-- A new type for a request, if its name can be taken. -/
def make (r : Request) : Except Error Handle :=
  match typeNameFault? r.typeName with
  | some fault => .error (.badTypeName fault)
  | none => .ok (.made r)

/-- The values of an enum, each once. -/
def enumValues (r : Request) : Except Error (List String) := do
  let t ← subject g r
  match r.kind with
  | .enum => return t.values
  | _ => orderValues g t

/-- A new enum, if it has values. Their names are looked at only when the enum is printed. -/
def makeEnum (r : Request) : Except Error (Option Handle) := do
  if (← enumValues g r).isEmpty then return none
  else return some (← make r)

/-- The type that answers a request, or that there is none. -/
def build (r : Request) : m (Option Handle) := do
  match r.kind with
  | .scalar =>
    match g.find? r.subject with
    | some t => if t.isEnum then ask (.of .enum t.name) else throw (.notAnEnum t.name)
    | none =>
      match Scalar.ofName? r.subject with
      | some s => return some (.scalar s)
      | none => throw (.invalidScalar r.subject)
  | .enum | .orderBy => ofExcept (makeEnum g r)
  | .node | .pageInfo | .query | .mutation => return some (← ofExcept (make r))
  | .batchPayload =>
    let _ ← ask (.of .scalar Scalar.long.name)
    return some (← ofExcept (make r))
  | .object | .edge | .aggregate | .connection =>
    let _ ← ofExcept (subject g r)
    return some (← ofExcept (make r))
  | _ =>
    let t ← ofExcept (subject g r)
    if ← wouldBeEmpty g ask r t then return none
    else return some (← ofExcept (make r))

/-! ## Parts -/

/-- Field names as they are, unless one of them is no name. -/
def checkFieldNames {α : Type} (fields : FieldMap α) : Except Error (FieldMap α) :=
  match fields.keys.findSome? nameFault? with
  | some fault => .error (.badName fault)
  | none => .ok fields

/-- Says of an error that it kept the fields of a type from being worked out. -/
def resolving {α : Type} (r : Request) (fields : m α) : m α :=
  tryCatch fields fun cause => throw (.unresolvedFields r.typeName cause)

/-- The fields of an object or an interface; none for a kind of type that is neither. -/
def outputFields (r : Request) : m (FieldMap (OutputField Handle)) := do
  match r.kind with
  | .object => objectFields g ask (← ofExcept (subject g r))
  | .node => return nodeFields
  | .pageInfo => return pageInfoFields
  | .batchPayload => batchPayloadFields ask
  | .edge => edgeFields ask r.subject
  | .aggregate => return aggregateFields
  | .connection => connectionFields ask r.subject
  | .query => queryFields g ask
  | .mutation => allMutations g ask
  | _ => return []

/-- The interfaces of an object. -/
def interfaces (r : Request) : m (List Handle) := do
  match r.kind with
  | .object => objectInterfaces ask (← ofExcept (subject g r))
  | _ => return []

/-- What a type is made up of. -/
def body (r : Request) : m (TypeBody Handle) := do
  match r.kind with
  | .scalar => return .scalar
  | .enum | .orderBy =>
    return .enum (.ofEntries ((← ofExcept (enumValues g r)).map (·, {})))
  | .node =>
    return .interface [] (← ofExcept (checkFieldNames (← resolving r (outputFields g ask r))))
  | .object | .pageInfo | .batchPayload | .edge | .aggregate | .connection | .query | .mutation =>
    let implemented ← interfaces g ask r
    return .object implemented (← ofExcept (checkFieldNames (← resolving r (outputFields g ask r))))
  | _ =>
    let t ← ofExcept (subject g r)
    return .inputObject (← ofExcept (checkFieldNames (← resolving r (inputFields g ask r t))))

/-- The description of a type. -/
def description (r : Request) : Option String :=
  match r.kind with
  | .object => (g.find? r.subject).bind (·.description)
  | .node => some "An object with an ID"
  | .pageInfo => some "Information about pagination in a connection."
  | .edge => some "An edge in a connection."
  | .connection => some "A connection to a list of items."
  | _ => none

/-- The type behind a handle. -/
def define : Handle → m (NamedType Handle)
  | .scalar s => return .ofScalar s
  | .made r => return { name := r.typeName, description := description g r, body := ← body g ask r }
  | .absent => return { name := Handle.absent.name, body := .scalar }

/-- The type behind a handle, if it can be printed. -/
def definePrintable (h : Handle) : m (NamedType Handle) := do
  let t ← define g ask h
  match t.valueFault? with
  | some fault => throw (.badName fault)
  | none => return t

end Build

/-! ## Answering every request -/

/-- Answers requests with the given number of levels of asking below. -/
def answerWithin (g : TypeGraph) : Nat → Request → Run (Option Handle)
  | 0, r => remember r (build g (fun _ => pure none) r)
  | n + 1, r => remember r (build g (answerWithin g n) r)

/-- Answers a request. -/
def answer (g : TypeGraph) : Request → Run (Option Handle) := answerWithin g 2

/-- The answer to a request by itself, with nothing remembered, within a number of levels. -/
def freshWithin (g : TypeGraph) : Nat → Request → Except Error (Option Handle)
  | 0, r => build g (fun _ => pure none) r
  | n + 1, r => build g (freshWithin g n) r

/-- The answer to a request by itself. -/
def fresh (g : TypeGraph) : Request → Except Error (Option Handle) := freshWithin g 2

end OpenCrud.Generate
