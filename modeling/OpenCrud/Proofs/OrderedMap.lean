import Mathlib.Algebra.BigOperators.Group.List.Basic
import OpenCrud.Proofs.FieldMap

/-!
# Field maps as a monoid

Places and values of keys follow opposite rules: the first place counts, and the last value. Still it makes no
difference how the maps are grouped that are merged, so field maps without repeated keys are a monoid and what
a list of maps is merged to is their product (`OrderedMap.prod_eq_merge`). All that merging comes to is in
`MergeLaws`.
-/

namespace OpenCrud

/-- A field map without repeated keys. -/
@[ext]
structure OrderedMap (α : Type) where
  entries : FieldMap α
  nodup_keys : (entries.map Prod.fst).Nodup

namespace OrderedMap

variable {α : Type}

/-- What a list of maps is merged to. -/
def merge (maps : List (Option (FieldMap α))) : OrderedMap α where
  entries := FieldMap.merge maps
  nodup_keys := FieldMap.nodup_keys_merge maps

instance : One (OrderedMap α) := ⟨merge []⟩

instance : Mul (OrderedMap α) := ⟨fun a b => merge [some a.entries, some b.entries]⟩

/-- The product of what two lists of maps come to. -/
theorem merge_mul_merge (maps maps' : List (Option (FieldMap α))) :
    merge maps * merge maps' = merge (maps ++ maps') :=
  OrderedMap.ext (FieldMap.merge_append maps maps').symm

/-- A map is what it is merged to by itself, so what holds of merged maps holds of all. -/
theorem merge_entries (a : OrderedMap α) : merge [some a.entries] = a :=
  OrderedMap.ext (FieldMap.merge_singleton a.nodup_keys)

instance : Monoid (OrderedMap α) where
  mul_assoc a b c := by
    rw [← merge_entries a, ← merge_entries b, ← merge_entries c]
    simp only [merge_mul_merge, List.append_assoc]
  one_mul a := by
    rw [← merge_entries a]
    exact merge_mul_merge [] [some a.entries]
  mul_one a := by
    rw [← merge_entries a]
    exact merge_mul_merge [some a.entries] []

/-- A list of maps is merged to their product, where an absent map counts as the empty one. -/
theorem prod_eq_merge (maps : List (Option (OrderedMap α))) :
    (maps.map (Option.getD · 1)).prod = merge (maps.map (·.map entries)) := by
  induction maps with
  | nil => rfl
  | cons map maps ih =>
    have hone : map.getD 1 = merge [map.map entries] := by
      cases map with
      | none => rfl
      | some a => exact (merge_entries a).symm
    rw [List.map_cons, List.prod_cons, ih, hone, merge_mul_merge]
    rfl

end OrderedMap

namespace FieldMap

variable {α : Type}

/-- What merging maps comes to. -/
structure MergeLaws (α : Type) : Prop where
  /-- Two lists of maps can be merged one by one first. -/
  append : ∀ maps maps' : List (Option (FieldMap α)),
    merge (maps ++ maps') = merge [some (merge maps), some (merge maps')]
  /-- An absent map changes nothing, wherever it stands. -/
  absent : ∀ maps maps' : List (Option (FieldMap α)), merge (maps ++ none :: maps') = merge (maps ++ maps')
  /-- A map without entries changes nothing, wherever it stands. -/
  empty : ∀ maps maps' : List (Option (FieldMap α)), merge (maps ++ some [] :: maps') = merge (maps ++ maps')
  /-- A map by itself stays as it is exactly where no key comes twice. -/
  single : ∀ map : FieldMap α, merge [some map] = map ↔ map.keys.Nodup
  /-- Every key stands once. -/
  once : ∀ maps : List (Option (FieldMap α)), (merge maps).keys.Nodup
  /-- The keys stand in the order in which they first come in the maps. -/
  place : ∀ maps : List (Option (FieldMap α)),
    (merge maps).keys = (maps.flatMap fun map => (map.getD []).keys).eraseDups
  /-- A key has the value that it has last in the maps. -/
  value : ∀ (maps : List (Option (FieldMap α))) (key : String),
    find? key (merge maps) = (maps.flatMap (·.getD [])).reverse.lookup key
  /-- Maps without repeated keys are multiplied by merging them. -/
  product : ∀ maps : List (Option (OrderedMap α)),
    merge (maps.map (·.map OrderedMap.entries)) = (maps.map (Option.getD · 1)).prod.entries

theorem mergeLaws : MergeLaws α where
  append := merge_append
  absent maps maps' := by
    rw [merge_eq_ofEntries, merge_eq_ofEntries]
    simp
  empty maps maps' := by
    rw [merge_eq_ofEntries, merge_eq_ofEntries]
    simp
  single map := by
    rw [merge_eq_ofEntries, List.flatMap_singleton]
    exact ofEntries_eq_self_iff
  once := nodup_keys_merge
  place maps := by
    rw [merge_eq_ofEntries, keys, keys_ofEntries, List.map_flatMap]
    rfl
  value maps key := by
    rw [merge_eq_ofEntries]
    exact find?_ofEntries key
  product maps := (congrArg OrderedMap.entries (OrderedMap.prod_eq_merge maps)).symm

end FieldMap

end OpenCrud
