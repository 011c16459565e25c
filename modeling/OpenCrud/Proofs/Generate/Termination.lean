import OpenCrud.Proofs.Generate.Assembled
import OpenCrud.Proofs.Generate.RunKeys

/-!
# Generation ends

The types of a datamodel refer to each other in circles, and so do the types that are generated for them. Main
result (`endsOnce_of_parse`): generating the root types and the types of the datamodel and looking at all that
they reach comes to an end for every accepted datamodel; no answer is worked out twice or within itself; and
all keys that are remembered in the end belong to a list that the declared types fix.

There are two reasons to end. Asking goes down in rank, so three levels are enough (`tracks_observeWithin`). And the
walk over the types comes upon finitely many, so with enough steps it has nothing left to look at: more levels and
more steps change nothing.
-/

namespace OpenCrud.Generate

open Datamodel Schema.Reach

/-! ## Generating and forcing everything -/

/-- The root types of a schema and all types that were found, with their parts. -/
structure Forced where
  query : Option Handle
  mutation : Option Handle
  found : Found Handle

section Force

variable {m : Type → Type} [Monad m] [MonadExceptOf Error m]

/-- Generates the root types and the types of the datamodel, and works out the parts of all that they reach,
looking at no more types at a time than there are steps. -/
def forceAll (g : TypeGraph) (ask : Ask m) (steps : Nat) : m Forced := do
  let query ← rootType g ask .query
  let mutation ← rootType g ask .mutation
  let own ← g.types.mapM fun t => ask (ownRequest t)
  let roots := query.toList ++ mutation.toList ++ [.scalar .boolean, .scalar .string]
  let found ← types (define g ask) (· = .absent) steps (own.filterMap id) roots
  return { query, mutation, found }

/-- The schema of what was found, unless a name comes twice. -/
def finish (forced : Forced) : m Schema :=
  match repeatedName? [] (forced.found.map fun entry => entry.2.name) with
  | some name => throw (.repeatedTypeName name)
  | none => return {
      types := forced.found.map fun entry => entry.2.map Handle.name
      query := forced.query.map Handle.name
      mutation := forced.mutation.map Handle.name }

/-- A schema is assembled by forcing everything. -/
theorem assemble_eq_forceAll [LawfulMonad m] (g : TypeGraph) (ask : Ask m) :
    assemble g ask = forceAll g ask (typeBound g) >>= finish := by
  simp only [assemble, forceAll, bind_assoc, pure_bind]
  rfl

end Force

/-- An observed run that forces everything, with numbers of levels of asking and of steps. -/
def forcedRun (g : TypeGraph) (levels steps : Nat) : Except Stop Forced × Log :=
  (forceAll g (observe g levels) steps).run {}

/-! ## Walks that are observed -/

section Walk

variable {S : Request → Prop} {g : TypeGraph} {P : Handle → Prop}
  {define : Handle → Observed (NamedType Handle)} {define' : Handle → Except Error (NamedType Handle)}
  (htracks : ∀ x, P x → Tracks S g [] (define x) (define' x))
  (hclosed : ∀ x d, P x → define' x = .ok d → ∀ y ∈ d.body.refs, P y)

include htracks hclosed

theorem tracks_walk (skip : Handle → Bool) (steps : Nat) {stack : List Handle} (hstack : ∀ y ∈ stack, P y)
    (found : Found Handle) :
    Tracks S g [] (walk define skip steps stack found) (walk define' skip steps stack found) := by
  induction steps generalizing stack found with
  | zero => exact Tracks.pure found
  | succ steps ih =>
    cases hdrop : stack.dropWhile fun ref => skip ref || found.has ref with
    | nil =>
      rw [walk_of_dropWhile_eq_nil hdrop, walk_of_dropWhile_eq_nil hdrop]
      exact Tracks.pure found
    | cons ref rest =>
      obtain ⟨_, hrest⟩ := mem_of_dropWhile hdrop
      have href := hstack ref (hrest ref List.mem_cons_self)
      rw [walk_of_dropWhile_eq_cons hdrop, walk_of_dropWhile_eq_cons hdrop]
      refine (htracks ref href).bind_of_ok fun d hd => ih ?_ _
      refine List.forall_mem_append.mpr ⟨hclosed ref d href hd, fun y hy => ?_⟩
      exact hstack y (hrest y (List.mem_cons_of_mem _ hy))

theorem tracks_walkListed (skip : Handle → Bool) (steps : Nat) {listed : List Handle}
    (hlisted : ∀ y ∈ listed, P y) (found : Found Handle) :
    Tracks S g [] (walkListed define skip steps listed found) (walkListed define' skip steps listed found) := by
  induction listed generalizing found with
  | nil => exact Tracks.pure found
  | cons ref later ih =>
    obtain ⟨href, hlater⟩ := List.forall_mem_cons.mp hlisted
    refine (tracks_walk htracks hclosed _ steps (List.forall_mem_singleton.mpr href) found).bind_of_ok ?_
    exact fun found' _ => ih hlater found'

theorem tracks_types (skip : Handle → Bool) (steps : Nat) {listed roots : List Handle}
    (hlisted : ∀ y ∈ listed, P y) (hroots : ∀ y ∈ roots, P y) :
    Tracks S g [] (types define skip steps listed roots) (types define' skip steps listed roots) :=
  (tracks_walkListed htracks hclosed skip steps hlisted []).bind_of_ok fun found _ =>
    tracks_walk htracks hclosed skip steps hroots found

/-! ## Steps that are not needed -/

variable {bound : List Handle} (hmem : ∀ x, P x → x ∈ bound)

omit htracks hclosed in
include hmem in
/-- A walk that looks at a new type has a step left for it. -/
theorem exists_step {found : Found Handle} (hfound : found.Valid define' P) {x : Handle} (hx : P x)
    (hnew : x ∉ found.refs) {steps : Nat} (hsteps : bound.length ≤ steps + found.length) :
    ∃ later, steps = later + 1 := by
  cases steps with
  | zero => exact absurd (hfound.mem_of_length_le hmem (by omega) hx) hnew
  | succ later => exact ⟨later, rfl⟩

include hmem

/-- A walk that has as many steps as there are types has nothing left to look at when they run out. -/
theorem run_walk_eq (skip : Handle → Bool) {steps steps' : Nat} {stack : List Handle}
    (hstack : ∀ y ∈ stack, P y) {found : Found Handle} (hfound : found.Valid define' P)
    (hsteps : bound.length ≤ steps + found.length) (hsteps' : bound.length ≤ steps' + found.length)
    {log : Log} (hlog : log.Sound S g) (hsettled : log.Settled []) :
    (walk define skip steps stack found).run log = (walk define skip steps' stack found).run log := by
  -- A step that looks at a type finds it, so steps and found types together stay as many as all types are.
  induction steps generalizing steps' stack found log with
  | zero =>
    cases hdrop : stack.dropWhile fun ref => skip ref || found.has ref with
    | nil => rw [walk_of_dropWhile_eq_nil hdrop, walk_of_dropWhile_eq_nil hdrop]
    | cons ref rest =>
      obtain ⟨hnew, hrest⟩ := mem_of_dropWhile hdrop
      obtain ⟨later, hlater⟩ :=
        exists_step hmem hfound (hstack ref (hrest ref List.mem_cons_self)) hnew hsteps
      cases hlater
  | succ steps ih =>
    cases hdrop : stack.dropWhile fun ref => skip ref || found.has ref with
    | nil => rw [walk_of_dropWhile_eq_nil hdrop, walk_of_dropWhile_eq_nil hdrop]
    | cons ref rest =>
      obtain ⟨hnew, hrest⟩ := mem_of_dropWhile hdrop
      have href := hstack ref (hrest ref List.mem_cons_self)
      obtain ⟨later, rfl⟩ := exists_step hmem hfound href hnew hsteps'
      rw [walk_of_dropWhile_eq_cons hdrop, walk_of_dropWhile_eq_cons hdrop]
      refine (htracks ref href).run_bind_eq hlog hsettled rfl fun d hd log' hlog' hsettled' => ?_
      refine ih ?_ (hfound.concat hnew href hd) ?_ ?_ hlog' hsettled'
      · refine List.forall_mem_append.mpr ⟨hclosed ref d href hd, fun y hy => ?_⟩
        exact hstack y (hrest y (List.mem_cons_of_mem _ hy))
      · rw [List.length_append, List.length_singleton]
        omega
      · rw [List.length_append, List.length_singleton]
        omega

theorem run_walkListed_eq (skip : Handle → Bool) {steps steps' : Nat} {listed : List Handle}
    (hlisted : ∀ y ∈ listed, P y) {found : Found Handle} (hfound : found.Valid define' P)
    (hsteps : bound.length ≤ steps) (hsteps' : bound.length ≤ steps')
    {log : Log} (hlog : log.Sound S g) (hsettled : log.Settled []) :
    (walkListed define skip steps listed found).run log =
      (walkListed define skip steps' listed found).run log := by
  induction listed generalizing found log with
  | nil => rfl
  | cons ref later ih =>
    obtain ⟨href, hlater⟩ := List.forall_mem_cons.mp hlisted
    have hstack := List.forall_mem_singleton.mpr href
    have heq := run_walk_eq htracks hclosed hmem (fun r => skip r || later.contains r) hstack hfound
      (Nat.le_add_right_of_le hsteps) (Nat.le_add_right_of_le hsteps') hlog hsettled
    refine (tracks_walk htracks hclosed _ steps hstack found).run_bind_eq hlog hsettled heq ?_
    exact fun found' hwalk log' hlog' hsettled' =>
      ih hlater (hfound.of_walk hclosed hstack hwalk) hlog' hsettled'

theorem run_types_eq (skip : Handle → Bool) {steps steps' : Nat} {listed roots : List Handle}
    (hlisted : ∀ y ∈ listed, P y) (hroots : ∀ y ∈ roots, P y) (hsteps : bound.length ≤ steps)
    (hsteps' : bound.length ≤ steps') {log : Log} (hlog : log.Sound S g) (hsettled : log.Settled []) :
    (types define skip steps listed roots).run log = (types define skip steps' listed roots).run log := by
  have heq := run_walkListed_eq htracks hclosed hmem skip hlisted .nil hsteps hsteps' hlog hsettled
  refine (tracks_walkListed htracks hclosed skip steps hlisted []).run_bind_eq hlog hsettled heq ?_
  exact fun found hwalk log' hlog' hsettled' =>
    run_walk_eq htracks hclosed hmem skip hroots (Found.Valid.nil.of_walkListed hclosed hlisted hwalk)
      (Nat.le_add_right_of_le hsteps) (Nat.le_add_right_of_le hsteps') hlog' hsettled'

end Walk

/-! ## Forcing everything -/

section Forced

variable {g : TypeGraph} (h : WellFormed g.types) {levels : Nat} (hlevels : 3 ≤ levels)

include h

theorem refs_of_define {x : Handle} (hx : x.Valid g) {d : NamedType Handle}
    (hd : define g (fresh g) x = .ok d) : ∀ y ∈ d.body.refs, y.Valid g := by
  have hyields := yields_define h hx
  rw [hd] at hyields
  exact hyields.2.refs

/-- What a schema starts from are types that it can hold. -/
theorem valid_own {own : List (Option Handle)}
    (hown : (g.types.mapM fun t => fresh g (ownRequest t)) = .ok own) : ∀ x ∈ own.filterMap id, x.Valid g := by
  rw [mapM_ownRequest h (free_of_ownRequests h hown)] at hown
  cases hown
  intro x hx
  obtain ⟨made, hmade, hx⟩ := List.mem_filterMap.mp hx
  obtain ⟨t, ht, rfl⟩ := List.mem_map.mp hmade
  cases hx
  exact valid_ownType ht

theorem valid_root {kind : Kind} (hk : kind.isShared = true) {root : Option Handle}
    (hroot : rootType g (fresh g) kind = .ok root) : ∀ x ∈ root.toList, x.Valid g := by
  rw [rootType_fresh h hk] at hroot
  cases hroot
  split
  · exact nofun
  · exact List.forall_mem_singleton.mpr (.shared hk)

theorem valid_roots {query mutation : Option Handle} (hquery : rootType g (fresh g) .query = .ok query)
    (hmutation : rootType g (fresh g) .mutation = .ok mutation) :
    ∀ x ∈ query.toList ++ mutation.toList ++ [.scalar .boolean, .scalar .string], x.Valid g := by
  refine List.forall_mem_append.mpr ⟨List.forall_mem_append.mpr ⟨?_, ?_⟩, ?_⟩
  · exact valid_root h rfl hquery
  · exact valid_root h rfl hmutation
  · exact List.forall_mem_cons.mpr ⟨.scalar _, List.forall_mem_singleton.mpr (.scalar _)⟩

include hlevels

theorem tracks_define {x : Handle} (hx : x.Valid g) :
    Tracks (· ∈ runRequests g) g [] (define g (observe g levels) x) (define g (fresh g) x) := by
  have hscope := scope_runRequests h
  cases x with
  | scalar s => exact Tracks.pure _
  | made r => exact (within_observe hscope hlevels).define (hscope.supports r (mem_runRequests_of_valid hx))
  | absent => cases hx

theorem tracks_rootType {kind : Kind} (hk : kind.isShared = true) :
    Tracks (· ∈ runRequests g) g [] (rootType g (observe g levels) kind) (rootType g (fresh g) kind) := by
  unfold rootType
  split
  · exact Tracks.pure _
  · exact (within_observe (scope_runRequests h) hlevels).request (shared_mem_runRequests hk)

theorem tracks_ownRequests :
    Tracks (· ∈ runRequests g) g [] (g.types.mapM fun t => observe g levels (ownRequest t))
      (g.types.mapM fun t => fresh g (ownRequest t)) := by
  refine Correspondence.holds_mapM (R := .tracking _ g []) g.types fun t ht => ?_
  refine (within_observe (scope_runRequests h) hlevels).request ?_
  unfold ownRequest
  split
  · rename_i henum
    exact enum_mem_runRequests ht henum List.mem_cons_self
  · rename_i henum
    exact model_mem_runRequests ht (Bool.not_eq_true _ ▸ henum) (by decide)

theorem tracks_forceAll (steps : Nat) :
    Tracks (· ∈ runRequests g) g [] (forceAll g (observe g levels) steps) (forceAll g (fresh g) steps) := by
  unfold forceAll
  refine (tracks_rootType h hlevels rfl).bind_of_ok fun query hquery => ?_
  refine (tracks_rootType h hlevels rfl).bind_of_ok fun mutation hmutation => ?_
  refine (tracks_ownRequests h hlevels).bind_of_ok fun own hown => ?_
  refine (tracks_types (fun _ hx => tracks_define h hlevels hx) (fun _ _ hx hd => refs_of_define h hx hd) _ steps
    (valid_own h hown) (valid_roots h hquery hmutation)).bind_of_ok fun found _ => ?_
  exact Tracks.pure _

/-- More steps than there are types make no difference. -/
theorem run_forceAll_eq {steps : Nat} (hsteps : typeBound g ≤ steps) {log : Log}
    (hlog : log.Sound (· ∈ runRequests g) g) (hsettled : log.Settled []) :
    (forceAll g (observe g levels) steps).run log = (forceAll g (observe g levels) (typeBound g)).run log := by
  have hbound := length_possibleTypes_le g
  unfold forceAll
  refine (tracks_rootType h hlevels rfl).run_bind_eq hlog hsettled rfl fun query hquery log hlog hsettled => ?_
  refine (tracks_rootType h hlevels rfl).run_bind_eq hlog hsettled rfl
    fun mutation hmutation log hlog hsettled => ?_
  refine (tracks_ownRequests h hlevels).run_bind_eq hlog hsettled rfl fun own hown log hlog hsettled => ?_
  have heq := run_types_eq (fun _ hx => tracks_define h hlevels hx) (fun _ _ hx hd => refs_of_define h hx hd)
    (fun _ hx => mem_possibleTypes hx) (· = .absent) (valid_own h hown) (valid_roots h hquery hmutation)
    (hbound.trans hsteps) hbound hlog hsettled
  -- Up to here the steps play no part, and what follows the walk is the same.
  refine (tracks_types (fun _ hx => tracks_define h hlevels hx) (fun _ _ hx hd => refs_of_define h hx hd) _ steps
    (valid_own h hown) (valid_roots h hquery hmutation)).run_bind_eq hlog hsettled heq fun _ _ _ _ _ => rfl

omit hlevels in
/-- Where everything can be forced, all that is reached is found, and each type once. -/
theorem walked_of_forceAll {forced : Forced} (hforced : forceAll g (fresh g) (typeBound g) = .ok forced) :
    forced.found.refs.Nodup ∧ ∀ x, x ∈ forced.found.refs ↔ x.ReachedFrom g (schemaRoots g) := by
  have hfree : ∀ t ∈ g.types, t.name ∉ introspectionNames := by
    obtain ⟨_, _, hown⟩ := bind_eq_ok_iff.mp hforced
    obtain ⟨_, _, hown⟩ := bind_eq_ok_iff.mp hown
    obtain ⟨own, hown, _⟩ := bind_eq_ok_iff.mp hown
    exact free_of_ownRequests h hown
  obtain ⟨found, hfound, hwalked⟩ := exists_walk h hfree
  rw [forceAll, rootType_fresh h rfl, rootType_fresh h rfl, mapM_ownRequest h hfree] at hforced
  simp only [ok_bind, filterMap_ownTypes, toList_roots, hfound] at hforced
  cases hforced
  exact ⟨hwalked.valid.nodup, fun x => mem_refs_iff h hwalked⟩

end Forced

theorem Log.sound_empty (S : Request → Prop) (g : TypeGraph) : Log.Sound S g {} where
  cache := Cache.sound_empty Args.Own g
  once := List.nodup_nil
  inner _ hwork := absurd hwork List.not_mem_nil
  worked _ hentry := absurd hentry List.not_mem_nil
  answers _ hentry := absurd hentry List.not_mem_nil
  scope _ hwork := absurd hwork List.not_mem_nil

/-- To say what the schema is does not change the log. -/
theorem run_finish (x : Observed Forced) (log : Log) : ((x >>= finish).run log).2 = (x.run log).2 := by
  rcases hx : x.run log with ⟨e | forced, log'⟩
  · rw [run_bind_error hx]
  · rw [run_bind_ok hx, finish]
    split <;> rfl

/-- Forcing everything is what the run does that a schema comes from. -/
theorem cache_forcedRun (g : TypeGraph) : (forcedRun g 3 (typeBound g)).2.cache = (schemaRun g).2 := by
  obtain ⟨log, hrun, hcache⟩ := follows_assemble g (le_refl 3) {}
  have hlog : log = (forcedRun g 3 (typeBound g)).2 := by
    rw [forcedRun, ← run_finish, ← assemble_eq_forceAll, hrun]
  rw [← hlog, hcache]
  rfl

/-! ## Main result -/

/--
That generating and forcing everything ends, with numbers of levels and of steps to spare.

Either the run fails, or everything that is reached has been looked at. In both cases no level of asking was missing,
more levels and more steps are of no use, and the log says what work was done. The keys that can be
worked on are listed by `runKeys`: eighteen for each type with fields, two for each enum, nine for the
scalars and five for the types that exist once.
-/
structure EndsOnce (g : TypeGraph) (levels steps : Nat) : Prop where
  result : forcedRun g levels steps = forcedRun g 3 (typeBound g)
  not_exhausted : ∀ log, forcedRun g levels steps ≠ (.error .exhausted, log)
  complete : ∀ forced log, forcedRun g levels steps = (.ok forced, log) →
    forced.found.refs.Nodup ∧ ∀ x, x ∈ forced.found.refs ↔ x.ReachedFrom g (schemaRoots g)
  cache : (forcedRun g levels steps).2.cache = (schemaRun g).2
  worked : ∀ entry ∈ (schemaRun g).2.entries, entry.1 ∈ (forcedRun g levels steps).2.works.map Work.key
  once : ((forcedRun g levels steps).2.works.map Work.key).Nodup
  not_reentered : ∀ work ∈ (forcedRun g levels steps).2.works, work.key ∉ work.around
  keys : ∀ entry ∈ (schemaRun g).2.entries, entry.1 ∈ runKeys g
  nodup_keys : (runKeys g).Nodup
  length_keys : (runKeys g).length =
    9 + 5 + 2 * (g.types.filter (·.isEnum)).length + 18 * (g.types.filter (!·.isEnum)).length

section Log

variable {g : TypeGraph} (h : WellFormed g.types)

include h

/-- The log of a run that forces everything. -/
theorem exists_log : ∃ log : Log,
    forcedRun g 3 (typeBound g) = ((forceAll g (fresh g) (typeBound g)).mapError .failed, log) ∧
      log.Sound (· ∈ runRequests g) g ∧ log.cache = (schemaRun g).2 := by
  obtain ⟨log, hrun, hlog, _, _⟩ :=
    tracks_forceAll h (le_refl 3) (typeBound g) {} (Log.sound_empty _ g) nofun
  have hcache := cache_forcedRun g
  rw [forcedRun, hrun] at hcache
  exact ⟨log, hrun, hlog, hcache⟩

/-- What the run of a schema remembers in the end are the answers to requests that the declared types fix. -/
theorem exists_request {entry : Key × Option Handle} (hentry : entry ∈ (schemaRun g).2.entries) :
    ∃ r ∈ runRequests g, r.key = entry.1 ∧ fresh g r = .ok entry.2 := by
  obtain ⟨log, _, hlog, hcache⟩ := exists_log h
  exact hlog.answers entry (hcache ▸ hentry)

theorem endsOnce {levels steps : Nat} (hlevels : 3 ≤ levels) (hsteps : typeBound g ≤ steps) :
    EndsOnce g levels steps := by
  have hresult : forcedRun g levels steps = forcedRun g 3 (typeBound g) := by
    rw [forcedRun, run_forceAll_eq h hlevels hsteps (Log.sound_empty _ g) nofun, observe_eq g hlevels]
    rfl
  obtain ⟨log, hrun, hlog, hcache⟩ := exists_log h
  have hforced := hresult.trans hrun
  refine ⟨hresult, fun log' => ?_, fun forced log' hok => ?_, ?_, ?_, ?_, ?_, fun entry hentry => ?_,
    nodup_runKeys h, length_runKeys g⟩
  · rw [hforced]
    exact fun hstop => Stop.mapError_ne_exhausted _ (Prod.mk.inj hstop).1
  · rw [hforced] at hok
    exact walked_of_forceAll h (Stop.eq_ok_of_mapError (Prod.mk.inj hok).1)
  · rw [hforced]
    exact hcache
  · rw [hforced, ← hcache]
    exact hlog.worked
  · rw [hforced]
    exact hlog.once
  · rw [hforced]
    exact fun work hwork hkey => Nat.lt_irrefl _ (hlog.inner work hwork work.key hkey)
  · obtain ⟨r, hr, hkey, _⟩ := exists_request h hentry
    rw [← hkey]
    exact List.mem_map_of_mem hr

end Log

/-- Whatever circles there are in an accepted datamodel, generating and forcing everything ends, works no answer
out twice or within itself, and remembers only keys that the declared types fix. -/
theorem endsOnce_of_parse {database : Database} {source : List Char} {types : List ModelType}
    (h : parse database source = .ok types) {levels steps : Nat} (hlevels : 3 ≤ levels)
    (hsteps : typeBound (.ofTypes types) ≤ steps) : EndsOnce (.ofTypes types) levels steps :=
  endsOnce (wellFormed_of_parse h).ofTypes hlevels hsteps

theorem endsOnce_circle : ∃ types, parse .document circleSource = .ok types ∧ 3 ≤ 4 ∧
    typeBound (.ofTypes types) ≤ typeBound (.ofTypes types) + 1 ∧
      EndsOnce (.ofTypes types) 4 (typeBound (.ofTypes types) + 1) := by
  obtain ⟨types, h⟩ : ∃ types, parse .document circleSource = .ok types :=
    exists_eq_ok (by decide +kernel)
  exact ⟨types, h, by decide, Nat.le_succ _, endsOnce_of_parse h (by decide) (Nat.le_succ _)⟩

end OpenCrud.Generate
