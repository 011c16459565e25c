/-!
# Ordered field maps

Fields, arguments and enum values are kept in maps that remember the order of their keys. Writing a key
that is already there changes its value and keeps its place; a new key goes to the end.
-/

namespace OpenCrud

/-- A map from names to values that keeps the order in which names first came. -/
abbrev FieldMap (α : Type) := List (String × α)

namespace FieldMap

variable {α β : Type}

/-- Writes a value: in place when the key is there, else at the end. -/
def insert (key : String) (value : α) : FieldMap α → FieldMap α
  | [] => [(key, value)]
  | entry :: rest =>
    if entry.1 = key then (key, value) :: rest else entry :: insert key value rest

/-- Writes every entry of `new` into `old`, first to last. -/
def update (old new : FieldMap α) : FieldMap α :=
  new.foldl (fun map entry => insert entry.1 entry.2 map) old

/-- The map that results from writing the entries in order. -/
def ofEntries (entries : List (String × α)) : FieldMap α := update [] entries

/-- Merges maps left to right, skipping the absent ones: a key keeps its first place and takes its last
value. -/
def merge (maps : List (Option (FieldMap α))) : FieldMap α :=
  maps.foldl (fun result map => update result (map.getD [])) []

/-- The value of a key. -/
def find? (key : String) (map : FieldMap α) : Option α := map.lookup key

/-- The keys in order. -/
def keys (map : FieldMap α) : List String := map.map Prod.fst

end FieldMap

end OpenCrud
