import OpenCrud.Generate.Run

/-!
# Nested operations

A mutation can reach items that are related to the one it writes. What it can do with them is a list of
operations, each with the type of what it takes. An operation is left out when there is no such type: an
embedded item cannot be connected, and a required one cannot be deleted or disconnected. Two operations have
parts that they cannot do without; there the parts are all put down, and whoever asks for the operation has to see
that none is missing.
-/

namespace OpenCrud.Generate

/-- Operations with the types of what they take. -/
abbrev Operations := FieldMap Handle

/-- The operations whose types exist. -/
def offered (candidates : List (String × Option Handle)) : Operations :=
  candidates.filterMap fun candidate => candidate.2.map (candidate.1, ·)

/-- All parts, whether their types exist or not. -/
def needed (parts : List (String × Option Handle)) : Operations :=
  parts.map fun part => (part.1, part.2.getD .absent)

section Operations

variable {m : Type → Type} [Monad m] (ask : Ask m) (t : ModelType)

/-- The type that creates an item. -/
def askCreate : m (Option Handle) := ask (.of .create t.name)

/-- The type that changes an item from within another mutation. -/
def askNestedUpdate : m (Option Handle) := ask ⟨.update, t.name, .isNested⟩

/-- The type that selects an item. -/
def askWhereUnique : m (Option Handle) := ask (.of .whereUnique t.name)

/-- The type that selects an item to connect. -/
def askConnect : m (Option Handle) := if t.isEmbedded then pure none else askWhereUnique ask t

/-- How items can be related to a new item. -/
def createOperations : m Operations := do
  let create ← askCreate ask t
  let connect ← askConnect ask t
  return offered [("create", create), ("connect", connect)]

/-- How the one item of a relation can be changed. -/
def updateOneOperations (required : Bool) : m Operations := do
  let create ← askCreate ask t
  let update ← askNestedUpdate ask t
  let upsert ← ask (.of .upsertNested t.name)
  let connect ← askConnect ask t
  let flag (possible : Bool) : Option Handle := if possible then some (.scalar .boolean) else none
  return offered
    [("create", create), ("update", update), ("upsert", upsert), ("delete", flag !required),
     ("disconnect", flag (!required && !t.isEmbedded)), ("connect", connect)]

/-- How the many items of a relation can be changed. -/
def updateManyOperations : m Operations := do
  let unique ← askWhereUnique ask t
  let create ← askCreate ask t
  let update ← ask (.of .updateWithWhereUnique t.name)
  let connect := if t.isEmbedded then none else unique
  return offered
    [("create", create), ("update", update), ("delete", unique), ("connect", connect),
     ("disconnect", connect)]

/-- The parts of a change to one of many items. -/
def updateSelectedParts : m (List (String × Option Handle)) := do
  let unique ← askWhereUnique ask t
  let update ← askNestedUpdate ask t
  return [("where", unique), ("data", update)]

/-- The parts of a change to an item that may have to be created. -/
def upsertParts : m (List (String × Option Handle)) := do
  let update ← askNestedUpdate ask t
  let create ← askCreate ask t
  return [("update", update), ("create", create)]

end Operations

end OpenCrud.Generate
