import Mathlib.Data.List.Induction
import Mathlib.Data.List.Nodup
import OpenCrud.FieldMap

/-!
# Entries of field maps

A field map holds nothing that was not written into it, and it holds everything that was written if no key was
written twice. Otherwise a key has the place where it first came (`keys_ofEntries`) and the value that was
written last (`find?_ofEntries`), and it makes no difference if some of the entries are collected in a map before
they are written (`update_ofEntries`).
-/

namespace OpenCrud.FieldMap

variable {α β : Type} {key : String} {value : α} {entry : String × α} {map old new : FieldMap α}

/-! ## Writing one entry -/

theorem insert_of_not_mem (h : key ∉ map.map Prod.fst) : insert key value map = map ++ [(key, value)] := by
  induction map with
  | nil => rfl
  | cons first rest ih =>
    rw [List.map_cons, List.mem_cons, not_or] at h
    rw [insert, if_neg (Ne.symm h.1), ih h.2]
    rfl

theorem mem_of_mem_insert (h : entry ∈ insert key value map) : entry = (key, value) ∨ entry ∈ map := by
  induction map with
  | nil => exact Or.inl (List.mem_singleton.mp h)
  | cons first rest ih =>
    unfold insert at h
    split at h
    · rcases List.mem_cons.mp h with h | h
      · exact Or.inl h
      · exact Or.inr (List.mem_cons_of_mem _ h)
    · rcases List.mem_cons.mp h with h | h
      · exact Or.inr (h ▸ List.mem_cons_self)
      · rcases ih h with h | h
        · exact Or.inl h
        · exact Or.inr (List.mem_cons_of_mem _ h)

theorem mem_insert_self : (key, value) ∈ insert key value map := by
  induction map with
  | nil => exact List.mem_singleton_self _
  | cons first rest ih =>
    unfold insert
    split
    · exact List.mem_cons_self
    · exact List.mem_cons_of_mem _ ih

theorem mem_insert_of_ne (h : entry ∈ map) (hne : entry.1 ≠ key) : entry ∈ insert key value map := by
  induction map with
  | nil => cases h
  | cons first rest ih =>
    unfold insert
    split
    · rename_i hkey
      rcases List.mem_cons.mp h with rfl | h
      · exact absurd hkey hne
      · exact List.mem_cons_of_mem _ h
    · rcases List.mem_cons.mp h with rfl | h
      · exact List.mem_cons_self
      · exact List.mem_cons_of_mem _ (ih h)

theorem insert_ne_nil : insert key value map ≠ [] := by
  cases map with
  | nil => exact List.cons_ne_nil _ _
  | cons first rest =>
    unfold insert
    split <;> exact List.cons_ne_nil _ _

/-- A key that is there keeps its place, and a new one goes to the end. -/
theorem keys_insert : (insert key value map).map Prod.fst =
    if key ∈ map.map Prod.fst then map.map Prod.fst else map.map Prod.fst ++ [key] := by
  induction map with
  | nil => rfl
  | cons first rest ih =>
    rw [insert]
    by_cases hfirst : first.1 = key
    · simp [hfirst]
    · rw [if_neg hfirst, List.map_cons, ih]
      by_cases hrest : key ∈ rest.map Prod.fst
      · simp [hrest]
      · simp [hrest, Ne.symm hfirst]

theorem length_insert_of_mem (h : key ∈ map.map Prod.fst) : (insert key value map).length = map.length := by
  have hkeys : (insert key value map).map Prod.fst = map.map Prod.fst := by rw [keys_insert, if_pos h]
  simpa using congrArg List.length hkeys

theorem find?_cons (key : String) (first : String × α) (rest : FieldMap α) :
    find? key (first :: rest) = if key = first.1 then some first.2 else find? key rest := by
  rw [find?, List.lookup_cons]
  by_cases hkey : key = first.1
  · simp [hkey]
  · rw [if_neg hkey, beq_false_of_ne hkey]
    rfl

theorem find?_map (key : String) (f : α → β) (map : FieldMap α) :
    find? key (map.map fun entry => (entry.1, f entry.2)) = (find? key map).map f := by
  induction map with
  | nil => rfl
  | cons first rest ih =>
    rw [List.map_cons, find?_cons, find?_cons, ih]
    split <;> rfl

/-- In a map without repeated keys the value of a key is the one that stands with it. -/
theorem lookup_eq_some_iff (h : (map.map Prod.fst).Nodup) : map.lookup key = some value ↔ (key, value) ∈ map := by
  induction map with
  | nil => simp
  | cons first rest ih =>
    obtain ⟨key', value'⟩ := first
    rw [List.map_cons, List.nodup_cons] at h
    rw [List.mem_cons]
    by_cases hkey : key = key'
    · subst hkey
      rw [List.lookup_cons_self]
      constructor
      · rintro ⟨⟩
        exact Or.inl rfl
      · rintro (heq | hmem)
        · rw [(Prod.mk.inj heq).2]
        · exact absurd (List.mem_map_of_mem (f := Prod.fst) hmem) h.1
    · rw [List.lookup_cons, beq_eq_false_iff_ne.mpr hkey, ih h.2]
      constructor
      · exact Or.inr
      · rintro (heq | hmem)
        · exact absurd (Prod.mk.inj heq).1 hkey
        · exact hmem

theorem find?_insert (key' : String) :
    find? key' (insert key value map) = if key' = key then some value else find? key' map := by
  induction map with
  | nil => exact find?_cons key' (key, value) []
  | cons first rest ih =>
    unfold insert
    by_cases hfirst : first.1 = key
    · rw [if_pos hfirst, find?_cons, find?_cons, hfirst]
      split <;> rfl
    · rw [if_neg hfirst, find?_cons, find?_cons, ih]
      by_cases hkey : key' = first.1
      · rw [if_pos hkey, if_pos hkey, if_neg (hkey ▸ hfirst)]
      · rw [if_neg hkey, if_neg hkey]

theorem mem_keys_insert (key' : String) :
    key' ∈ (insert key value map).map Prod.fst ↔ key' = key ∨ key' ∈ map.map Prod.fst := by
  rw [keys_insert]
  by_cases hkey : key ∈ map.map Prod.fst
  · rw [if_pos hkey]
    exact ⟨Or.inr, fun h => h.elim (fun heq => heq ▸ hkey) id⟩
  · rw [if_neg hkey, List.mem_append, List.mem_singleton, or_comm]

theorem nodup_keys_insert (h : (map.map Prod.fst).Nodup) : ((insert key value map).map Prod.fst).Nodup := by
  rw [keys_insert]
  by_cases hkey : key ∈ map.map Prod.fst
  · rwa [if_pos hkey]
  · rw [if_neg hkey, ← List.concat_eq_append, List.nodup_concat]
    exact ⟨hkey, h⟩

theorem insert_insert_self (other : α) : insert key value (insert key other map) = insert key value map := by
  induction map with
  | nil => simp [insert]
  | cons first rest ih =>
    rw [insert, insert]
    by_cases hfirst : first.1 = key
    · simp [insert, hfirst]
    · rw [if_neg hfirst, if_neg hfirst, insert, if_neg hfirst, ih]

/-- Two writes can change places if one of the keys has its place already. -/
theorem insert_comm {key' : String} {value' : α} (hne : key ≠ key') (hmem : key ∈ map.map Prod.fst) :
    insert key value (insert key' value' map) = insert key' value' (insert key value map) := by
  induction map with
  | nil => cases hmem
  | cons first rest ih =>
    by_cases hkey : first.1 = key
    · -- The key stands here, so the other one is written behind it.
      simp [insert, hkey, hne]
    · have hrest : key ∈ rest.map Prod.fst := (List.mem_cons.mp hmem).resolve_left (Ne.symm hkey)
      by_cases hkey' : first.1 = key'
      · simp [insert, hkey', Ne.symm hne]
      · simp [insert, hkey, hkey', ih hrest]

/-- A value that is not chosen can only take the place of one that is. -/
theorem filterMap_insert {p : α → Option β} (hvalue : p value = none)
    (hmap : ∀ entry ∈ map, entry.1 = key → p entry.2 = none) :
    (insert key value map).filterMap (fun entry => p entry.2) = map.filterMap fun entry => p entry.2 := by
  induction map with
  | nil => simp [insert, hvalue]
  | cons first rest ih =>
    obtain ⟨hfirst, hrest⟩ := List.forall_mem_cons.mp hmap
    unfold insert
    split
    · rename_i hkey
      simp only [List.filterMap_cons, hvalue, hfirst hkey]
    · simp only [List.filterMap_cons, ih hrest]

/-! ## Writing many entries -/

theorem update_cons (first : String × α) (rest : List (String × α)) :
    update old (first :: rest) = update (insert first.1 first.2 old) rest := rfl

theorem update_append {new' : FieldMap α} : update old (new ++ new') = update (update old new) new' :=
  List.foldl_append

theorem mem_of_mem_update (h : entry ∈ update old new) : entry ∈ old ∨ entry ∈ new := by
  induction new generalizing old with
  | nil => exact Or.inl h
  | cons first rest ih =>
    rw [update_cons] at h
    rcases ih h with h | h
    · rcases mem_of_mem_insert h with h | h
      · exact Or.inr (h ▸ List.mem_cons_self)
      · exact Or.inl h
    · exact Or.inr (List.mem_cons_of_mem _ h)

theorem mem_of_mem_ofEntries (h : entry ∈ ofEntries new) : entry ∈ new := by
  rcases mem_of_mem_update h with h | h
  · cases h
  · exact h

theorem update_eq_nil_iff : update old new = [] ↔ old = [] ∧ new = [] := by
  induction new generalizing old with
  | nil => simp [update]
  | cons first rest ih =>
    rw [update_cons, ih]
    constructor
    · intro h
      exact absurd h.1 insert_ne_nil
    · intro h
      cases h.2

theorem ofEntries_eq_nil_iff : ofEntries new = [] ↔ new = [] := by
  rw [ofEntries, update_eq_nil_iff]
  exact ⟨And.right, fun h => ⟨rfl, h⟩⟩

theorem update_of_nodup (h : ((old ++ new).map Prod.fst).Nodup) : update old new = old ++ new := by
  induction new generalizing old with
  | nil => simp [update]
  | cons first rest ih =>
    have hsplit : old ++ first :: rest = old ++ [first] ++ rest := by simp
    have hmem : first.1 ∉ old.map Prod.fst := by
      rw [List.map_append, List.nodup_append] at h
      intro hc
      exact h.2.2 _ hc _ (by simp) rfl
    rw [update_cons, insert_of_not_mem hmem, ih (hsplit ▸ h), hsplit]

/-- Entries with different keys are all kept, in their order. -/
theorem ofEntries_of_nodup (h : (new.map Prod.fst).Nodup) : ofEntries new = new := by
  show update [] new = [] ++ new
  exact update_of_nodup h

theorem nodup_keys_update (h : (old.map Prod.fst).Nodup) : ((update old new).map Prod.fst).Nodup := by
  induction new generalizing old with
  | nil => exact h
  | cons first rest ih => exact ih (nodup_keys_insert h)

theorem nodup_keys_ofEntries : ((ofEntries new).map Prod.fst).Nodup := nodup_keys_update List.nodup_nil

/-- Entries are kept as they are exactly where no key is written twice. -/
theorem ofEntries_eq_self_iff : ofEntries new = new ↔ (new.map Prod.fst).Nodup := by
  refine ⟨fun heq => ?_, ofEntries_of_nodup⟩
  rw [← heq]
  exact nodup_keys_ofEntries

theorem ofEntries_concat (entries : List (String × α)) (last : String × α) :
    ofEntries (entries ++ [last]) = insert last.1 last.2 (ofEntries entries) :=
  update_append

/-- Keys stand where they first came. -/
theorem keys_ofEntries (entries : List (String × α)) :
    (ofEntries entries).map Prod.fst = (entries.map Prod.fst).eraseDups := by
  induction entries using List.reverseRecOn with
  | nil => rfl
  | append_singleton entries last ih =>
    rw [ofEntries_concat, keys_insert, ih, List.map_append, List.eraseDups_append]
    by_cases hlast : last.1 ∈ entries.map Prod.fst
    · simp [hlast, List.removeAll]
    · simp [hlast, List.removeAll, List.eraseDups_cons]

/-- Keys with one value for all of them stay where they first came. -/
theorem ofEntries_map_const (keys : List String) :
    ofEntries (keys.map (·, value)) = keys.eraseDups.map (·, value) := by
  have hvalues : ∀ entry ∈ ofEntries (keys.map (·, value)), (entry.1, value) = entry := by
    intro entry hentry
    obtain ⟨key, _, rfl⟩ := List.mem_map.mp (mem_of_mem_ofEntries hentry)
    rfl
  have hkeys : (ofEntries (keys.map (·, value))).map Prod.fst = keys.eraseDups := by
    rw [keys_ofEntries, List.map_map]
    exact congrArg List.eraseDups (List.map_id keys)
  calc ofEntries (keys.map (·, value))
      = (ofEntries (keys.map (·, value))).map fun entry => (entry.1, value) := by
        rw [List.map_congr_left hvalues, List.map_id']
    _ = ((ofEntries (keys.map (·, value))).map Prod.fst).map (·, value) := by
        rw [List.map_map]
        rfl
    _ = keys.eraseDups.map (·, value) := by rw [hkeys]

theorem find?_update (key : String) :
    find? key (update old new) = (new.reverse.lookup key).or (find? key old) := by
  induction new generalizing old with
  | nil => rfl
  | cons first rest ih =>
    have hone : List.lookup key [first] = if key = first.1 then some first.2 else none :=
      find?_cons key first []
    rw [update_cons, ih, find?_insert, List.reverse_cons, List.lookup_append, Option.or_assoc, hone]
    by_cases hkey : key = first.1
    · rw [if_pos hkey, if_pos hkey, Option.some_or]
    · rw [if_neg hkey, if_neg hkey, Option.none_or]

/-- The value that is written last counts. -/
theorem find?_ofEntries (key : String) : find? key (ofEntries new) = new.reverse.lookup key := by
  rw [ofEntries, find?_update]
  exact Option.or_none

/-! ## Writing what was collected -/

/-- A key that has its place already can be written first if it is not written again. -/
theorem insert_update (hold : key ∈ old.map Prod.fst) (hnew : key ∉ new.map Prod.fst) :
    insert key value (update old new) = update (insert key value old) new := by
  induction new generalizing old with
  | nil => rfl
  | cons first rest ih =>
    rw [List.map_cons, List.mem_cons, not_or] at hnew
    rw [update_cons, update_cons, ← insert_comm hnew.1 hold]
    exact ih ((mem_keys_insert key).mpr (Or.inr hold)) hnew.2

/-- An entry that is added to what is going to be written can as well be written at the end. -/
theorem update_insert (h : (new.map Prod.fst).Nodup) :
    update old (insert key value new) = insert key value (update old new) := by
  induction new generalizing old with
  | nil => rfl
  | cons first rest ih =>
    rw [List.map_cons, List.nodup_cons] at h
    rw [insert]
    by_cases hfirst : first.1 = key
    · -- The value that stands here is written over at once, and nothing behind it has the key.
      subst hfirst
      rw [if_pos rfl, update_cons, update_cons,
        insert_update ((mem_keys_insert first.1).mpr (Or.inl rfl)) h.1, insert_insert_self]
    · rw [if_neg hfirst, update_cons, update_cons]
      exact ih h.2

/-- Entries can be written one by one or as the map that they come to. -/
theorem update_ofEntries (entries : List (String × α)) : update old (ofEntries entries) = update old entries := by
  induction entries using List.reverseRecOn with
  | nil => rfl
  | append_singleton entries last ih =>
    rw [ofEntries_concat, update_insert nodup_keys_ofEntries, ih, update_append]
    rfl

/-! ## Merging maps -/

theorem mergeFrom_eq_update (maps : List (Option (FieldMap α))) :
    maps.foldl (fun result map => update result (map.getD [])) old =
      update old (maps.flatMap (·.getD [])) := by
  induction maps generalizing old with
  | nil => rfl
  | cons map maps ih =>
    rw [List.foldl_cons, ih, List.flatMap_cons, update_append]

/-- Maps are merged by writing all of their entries in order. -/
theorem merge_eq_ofEntries (maps : List (Option (FieldMap α))) :
    merge maps = ofEntries (maps.flatMap (·.getD [])) :=
  mergeFrom_eq_update maps

theorem mem_of_mem_merge {maps : List (Option (FieldMap α))} (h : entry ∈ merge maps) :
    ∃ map, some map ∈ maps ∧ entry ∈ map := by
  rw [merge_eq_ofEntries] at h
  obtain ⟨map, hmap, hentry⟩ := List.mem_flatMap.mp (mem_of_mem_ofEntries h)
  cases map with
  | none => cases hentry
  | some map => exact ⟨map, hmap, hentry⟩

theorem nodup_keys_merge (maps : List (Option (FieldMap α))) : ((merge maps).map Prod.fst).Nodup := by
  rw [merge_eq_ofEntries]
  exact nodup_keys_ofEntries

/-- A map without repeated keys is merged to itself. -/
theorem merge_singleton (h : (map.map Prod.fst).Nodup) : merge [some map] = map := ofEntries_of_nodup h

theorem merge_concat (maps : List (Option (FieldMap α))) (map : FieldMap α) :
    merge (maps ++ [some map]) = update (merge maps) map := by
  rw [merge, List.foldl_append]
  rfl

/-- Lists of maps can be merged one by one before what they come to is merged. -/
theorem merge_append (maps maps' : List (Option (FieldMap α))) :
    merge (maps ++ maps') = merge [some (merge maps), some (merge maps')] := by
  have hright : merge [some (merge maps), some (merge maps')] =
      update (merge [some (merge maps)]) (merge maps') := merge_concat [some (merge maps)] (merge maps')
  have hleft : merge (maps ++ maps') = update (merge maps) (maps'.flatMap (·.getD [])) := by
    simp only [merge_eq_ofEntries, ofEntries, List.flatMap_append, update_append]
  rw [hright, merge_singleton (nodup_keys_merge maps), merge_eq_ofEntries maps', update_ofEntries, hleft]

/-- What maps were merged to stands for them in front of other maps. -/
theorem merge_merge_cons (maps maps' : List (Option (FieldMap α))) :
    merge (some (merge maps) :: maps') = merge (maps ++ maps') :=
  calc merge ([some (merge maps)] ++ maps')
      = merge [some (merge [some (merge maps)]), some (merge maps')] := merge_append _ _
    _ = merge [some (merge maps), some (merge maps')] := by rw [merge_singleton (nodup_keys_merge maps)]
    _ = merge (maps ++ maps') := (merge_append maps maps').symm

/-- Maps that are made one by one can be merged one by one. -/
theorem foldlM_merge {m : Type → Type} [Monad m] [LawfulMonad m] (f : β → m (Option (FieldMap α))) (l : List β)
    (done : List (Option (FieldMap α))) :
    l.foldlM (fun map b => do return merge [some map, ← f b]) (merge done) =
      do return merge (done ++ (← l.mapM f)) := by
  -- At every step the map so far is what the maps so far are merged to.
  induction l generalizing done with
  | nil => simp
  | cons b l ih =>
    simp only [List.foldlM_cons, List.mapM_cons, bind_assoc, pure_bind, merge_merge_cons, ih, List.append_assoc,
      List.singleton_append]

end OpenCrud.FieldMap
