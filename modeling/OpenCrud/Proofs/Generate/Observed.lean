import OpenCrud.Proofs.Generate.Memory

/-!
# Observed runs

An observed run does what a run does and writes down whenever work on an answer starts: for which key, and which
answers are being worked out around it. Asking has a number of levels, and where none is left the run stops
for want of levels instead of guessing an answer.

The definitions of the generators run in both kinds of runs. With enough levels an observed run has the results
and the memory of a run (`follows_assemble`), so what its log says is said of the run.

What a log says is an invariant of every step (`Tracks`): no key is worked on twice, no work starts within work of
the same or a lower rank, and all is about requests of a scope. It holds because an answer asks for
answers of lower ranks only.
-/

namespace OpenCrud.Generate

/-! ## Logs -/

/-- Why an observed run stops: a generator fails, or no level of asking is left. -/
inductive Stop where
  | failed (e : Error)
  | exhausted

/-- A generator that fails does not stop for want of levels. -/
theorem Stop.mapError_ne_exhausted {α : Type} (x : Except Error α) :
    x.mapError Stop.failed ≠ .error .exhausted := by
  cases x with
  | error => exact nofun
  | ok => exact nofun

theorem Stop.eq_ok_of_mapError {α : Type} {x : Except Error α} {a : α}
    (h : x.mapError Stop.failed = .ok a) : x = .ok a := by
  cases x with
  | error => cases h
  | ok => exact congrArg Except.ok (Except.ok.inj h)

/-- Work on an answer: the key of the answer, and the keys of the answers that are being worked out then,
the innermost first. -/
structure Work where
  key : Key
  around : List Key

/-- What an observed run remembers, and the work that it started. -/
structure Log where
  cache : Cache := {}
  works : List Work := []

/-- A computation in an observed run. -/
abbrev Observed (α : Type) := ExceptT Stop (StateM Log) α

/-- Handlers of errors do not see that no level is left. -/
def Stop.handle {α : Type} (handle : Error → Observed α) : Stop → Observed α
  | .failed e => handle e
  | .exhausted => throwThe Stop .exhausted

instance : MonadExceptOf Error Observed where
  throw e := throwThe Stop (.failed e)
  tryCatch x handle := tryCatchThe Stop x (Stop.handle handle)

/-- Starts work on the answer to a request. -/
def start (r : Request) (around : List Key) : Observed Unit :=
  modify fun log => { log with works := log.works ++ [⟨r.key, around⟩] }

/-- Keeps the answer to a request. -/
def keep (r : Request) (answer : Option Handle) : Observed Unit :=
  modify fun log => { log with cache := log.cache.insert r.key answer }

/-- Answers requests with some levels of asking, while the answers of some keys are being worked out. -/
def observeWithin (g : TypeGraph) : Nat → List Key → Ask Observed
  | 0, _, _ => throwThe Stop .exhausted
  | levels + 1, around, r => do
    match (← get).cache.find? r.key with
    | some answer => pure answer
    | none =>
      start r around
      let answer ← build g (observeWithin g levels (r.key :: around)) r
      keep r answer
      pure answer

/-- Answers requests while no answer is being worked out. -/
def observe (g : TypeGraph) (levels : Nat) : Ask Observed := observeWithin g levels []

section Steps

variable {α β : Type} {x : Observed α} {f : α → Observed β} {r : Request} {log log' : Log}

theorem run_handle_ok {handle : Error → Observed α} {a : α} (h : x.run log = (.ok a, log')) :
    (tryCatchThe Error x handle).run log = (.ok a, log') :=
  run_tryCatch_ok (f := Stop.handle handle) h

theorem run_handle_failed {handle : Error → Observed α} {e : Error}
    (h : x.run log = (.error (.failed e), log')) :
    (tryCatchThe Error x handle).run log = (handle e).run log' :=
  run_tryCatch_error (f := Stop.handle handle) h

variable {g : TypeGraph} {levels : Nat} {around : List Key}

theorem run_observe_of_find?_eq_some {kept : Option Handle} (h : log.cache.find? r.key = some kept) :
    (observeWithin g (levels + 1) around r).run log = (.ok kept, log) := by
  unfold observeWithin
  rw [run_bind_ok run_get, h]
  rfl

/-- The log of a run that works on the answer to a request. -/
def Log.started (log : Log) (r : Request) (around : List Key) : Log :=
  { log with works := log.works ++ [⟨r.key, around⟩] }

theorem run_observe_of_find?_eq_none (h : log.cache.find? r.key = none) :
    (observeWithin g (levels + 1) around r).run log =
      (build g (observeWithin g levels (r.key :: around)) r >>= fun answer =>
        keep r answer >>= fun _ => pure answer).run (log.started r around) := by
  unfold observeWithin
  rw [run_bind_ok run_get, h]
  exact run_bind_ok (x := start r around) rfl

end Steps

/-- Levels of asking beyond the rank of a request make no difference. -/
theorem observeWithin_eq (g : TypeGraph) : ∀ (n k : Nat) (around : List Key) (r : Request),
    r.kind.rank < n → r.kind.rank < k → observeWithin g n around r = observeWithin g k around r := by
  intro n
  induction n with
  | zero => exact fun _ _ _ h => absurd h (Nat.not_lt_zero _)
  | succ n ih =>
    intro k around r hn hk
    cases k with
    | zero => exact absurd hk (Nat.not_lt_zero _)
    | succ k =>
      have hbuild : build g (observeWithin g n (r.key :: around)) r =
          build g (observeWithin g k (r.key :: around)) r :=
        Correspondence.holds_build (R := .equality fun _ _ _ => rfl)
          ⟨Args.distinct_own, fun r' _ hr' => ih k _ r' (by omega) (by omega)⟩ g
      rw [observeWithin, observeWithin, hbuild]

theorem observe_eq (g : TypeGraph) {levels : Nat} (hlevels : 3 ≤ levels) : observe g levels = observe g 3 := by
  funext r
  have hr := r.kind.rank_le
  exact observeWithin_eq g levels 3 [] r (by omega) (by omega)

/-! ## Observed runs and runs -/

/-- An observed computation has the result of a computation in a run, and remembers the same. -/
def Follows {α : Type} (x : Observed α) (y : Run α) : Prop :=
  ∀ log : Log, ∃ log' : Log, x.run log = ((y.run log.cache).1.mapError .failed, log') ∧
    log'.cache = (y.run log.cache).2

section Follows

variable {α β : Type} {x : Observed α} {y : Run α}

theorem Follows.bind {f : α → Observed β} {f' : α → Run β} (h : Follows x y)
    (hf : ∀ a, Follows (f a) (f' a)) : Follows (x >>= f) (y >>= f') := by
  intro log
  obtain ⟨log', hx, hcache⟩ := h log
  rcases hy : y.run log.cache with ⟨e | a, c⟩
  · rw [hy] at hx hcache
    rw [run_bind_error hy]
    exact ⟨log', run_bind_error hx, hcache⟩
  · rw [hy] at hx hcache
    obtain ⟨log'', hfa, hcache'⟩ := hf a log'
    rw [hcache] at hfa hcache'
    rw [run_bind_ok hy]
    exact ⟨log'', (run_bind_ok hx).trans hfa, hcache'⟩

theorem Follows.rethrow (h : Follows x y) (f : Error → Error) :
    Follows (tryCatchThe Error x fun e => throw (f e)) (tryCatchThe Error y fun e => throw (f e)) := by
  intro log
  obtain ⟨log', hx, hcache⟩ := h log
  rcases hy : y.run log.cache with ⟨e | a, c⟩
  · rw [hy] at hx hcache
    have hrun : (tryCatchThe Error y fun e => throw (f e)).run log.cache = (.error (f e), c) :=
      run_tryCatch_error hy
    rw [hrun]
    exact ⟨log', run_handle_failed hx, hcache⟩
  · rw [hy] at hx hcache
    have hrun : (tryCatchThe Error y fun e => throw (f e)).run log.cache = (.ok a, c) :=
      run_tryCatch_ok hy
    rw [hrun]
    exact ⟨log', run_handle_ok hx, hcache⟩

/-- Observed computations correspond to what they observe. -/
def Correspondence.follows : Correspondence Observed Run where
  Holds x y := Follows x y
  pure _ := fun log => ⟨log, rfl, rfl⟩
  bind := Follows.bind
  abort _ _ _ := fun log => ⟨log, rfl, rfl⟩
  rethrow f h := h.rethrow f

/-- Where a run works out an answer, an observed run does so too. -/
theorem follows_observe {g : TypeGraph} {levels : Nat} {around : List Key} {r : Request} {ask : Ask Run}
    (h : Follows (build g (observeWithin g levels (r.key :: around)) r) (build g ask r)) :
    Follows (observeWithin g (levels + 1) around r) (remember r (build g ask r)) := by
  intro log
  cases hfind : log.cache.find? r.key with
  | some kept =>
    rw [run_remember_of_find?_eq_some hfind]
    exact ⟨log, run_observe_of_find?_eq_some hfind, rfl⟩
  | none =>
    rw [run_remember_of_find?_eq_none hfind, run_observe_of_find?_eq_none hfind]
    have hkeep : ∀ answer : Option Handle, Follows (keep r answer >>= fun _ => pure answer)
        (modify (·.insert r.key answer) >>= fun _ => pure answer) :=
      fun answer log => ⟨{ log with cache := log.cache.insert r.key answer }, rfl, rfl⟩
    exact (h.bind hkeep) (log.started r around)

theorem follows_observeWithin (g : TypeGraph) : ∀ (levels n : Nat) (around : List Key) (r : Request),
    r.kind.rank < levels → r.kind.rank ≤ n → Follows (observeWithin g levels around r) (answerWithin g n r) := by
  intro levels
  induction levels with
  | zero => exact fun _ _ _ h => absurd h (Nat.not_lt_zero _)
  | succ levels ih =>
    intro n around r hlevels hn
    cases n with
    | zero =>
      refine follows_observe (Correspondence.holds_build (R := .follows) ⟨Args.distinct_own, ?_⟩ g)
      exact fun r' _ hr' => by omega
    | succ n =>
      refine follows_observe (Correspondence.holds_build (R := .follows) ⟨Args.distinct_own, ?_⟩ g)
      exact fun r' _ hr' => ih n _ r' (by omega) (by omega)

/-- With three levels, the schema of an observed run is that of the run, and both remember the same. -/
theorem follows_assemble (g : TypeGraph) {levels : Nat} (hlevels : 3 ≤ levels) :
    Follows (assemble g (observe g levels)) (assemble g (answer g)) := by
  refine Correspondence.holds_assemble (R := .follows) ⟨Args.distinct_own, fun r _ _ => ?_⟩ g
  have hr := r.kind.rank_le
  exact follows_observeWithin g levels 2 [] r (by omega) hr

end Follows

/-! ## What a log says -/

/-- What holds of the log of an observed run: no key is worked on twice, no work starts within work of the same
or of a lower rank, all that is remembered was worked on and answers a request, and all is about requests of a
scope. -/
structure Log.Sound (S : Request → Prop) (g : TypeGraph) (log : Log) : Prop where
  cache : log.cache.Sound Args.Own g
  once : (log.works.map Work.key).Nodup
  inner : ∀ work ∈ log.works, ∀ key ∈ work.around, work.key.kind.rank < key.kind.rank
  worked : ∀ entry ∈ log.cache.entries, entry.1 ∈ log.works.map Work.key
  answers : ∀ entry ∈ log.cache.entries, ∃ r, S r ∧ r.key = entry.1 ∧ fresh g r = .ok entry.2
  scope : ∀ work ∈ log.works, ∃ r, S r ∧ r.key = work.key

/-- Work that started is done, or goes on around the next work. -/
def Log.Settled (around : List Key) (log : Log) : Prop :=
  ∀ work ∈ log.works, (log.cache.find? work.key).isSome = true ∨ work.key ∈ around

/-- An observed computation has the result of a plain computation and keeps to what logs say. Where it fails, work
that started may be left undone. -/
def Tracks (S : Request → Prop) (g : TypeGraph) (around : List Key) {α : Type} (x : Observed α)
    (y : Except Error α) : Prop :=
  ∀ log : Log, log.Sound S g → log.Settled around → ∃ log' : Log,
    x.run log = (y.mapError .failed, log') ∧ log'.Sound S g ∧ log.works ⊆ log'.works ∧
      (y.isOk = true → log'.Settled around)

section Tracks

variable {S : Request → Prop} {g : TypeGraph} {around : List Key} {α β : Type} {x : Observed α}
  {y : Except Error α}

theorem Tracks.pure (a : α) : Tracks S g around (pure a) (pure a) := fun log hlog hsettled =>
  ⟨log, rfl, hlog, List.Subset.refl _, fun _ => hsettled⟩

/-- What comes next has to be tracked for the result that there is. -/
theorem Tracks.bind_of_ok {f : α → Observed β} {f' : α → Except Error β} (h : Tracks S g around x y)
    (hf : ∀ a, y = .ok a → Tracks S g around (f a) (f' a)) : Tracks S g around (x >>= f) (y >>= f') := by
  intro log hlog hsettled
  obtain ⟨log', hx, hlog', hworks, hsettled'⟩ := h log hlog hsettled
  cases y with
  | error e => exact ⟨log', run_bind_error hx, hlog', hworks, nofun⟩
  | ok a =>
    obtain ⟨log'', hfa, hlog'', hworks', hsettled''⟩ := hf a rfl log' hlog' (hsettled' rfl)
    exact ⟨log'', (run_bind_ok hx).trans hfa, hlog'', List.Subset.trans hworks hworks', hsettled''⟩

/-- Two observed computations run alike if they begin alike and go on alike. -/
theorem Tracks.run_bind_eq {x' : Observed α} {f f' : α → Observed β} (h : Tracks S g around x y) {log : Log}
    (hlog : log.Sound S g) (hsettled : log.Settled around) (heq : x.run log = x'.run log)
    (hf : ∀ a, y = .ok a → ∀ log' : Log, log'.Sound S g → log'.Settled around →
      (f a).run log' = (f' a).run log') : (x >>= f).run log = (x' >>= f').run log := by
  obtain ⟨log', hx, hlog', _, hsettled'⟩ := h log hlog hsettled
  cases y with
  | error e => rw [run_bind_error hx, run_bind_error (heq ▸ hx)]
  | ok a =>
    rw [run_bind_ok hx, run_bind_ok (heq ▸ hx)]
    exact hf a rfl log' hlog' (hsettled' rfl)

theorem Tracks.rethrow (h : Tracks S g around x y) (f : Error → Error) :
    Tracks S g around (tryCatchThe Error x fun e => throw (f e)) (tryCatchThe Error y fun e => throw (f e)) := by
  intro log hlog hsettled
  obtain ⟨log', hx, hlog', hworks, hsettled'⟩ := h log hlog hsettled
  cases y with
  | error e => exact ⟨log', run_handle_failed hx, hlog', hworks, nofun⟩
  | ok a => exact ⟨log', run_handle_ok hx, hlog', hworks, hsettled'⟩

/-- Observed computations correspond to the plain computations that they track. -/
def Correspondence.tracking (S : Request → Prop) (g : TypeGraph) (around : List Key) :
    Correspondence Observed (Except Error) where
  Holds x y := Tracks S g around x y
  pure a := Tracks.pure a
  bind h hf := h.bind_of_ok fun a _ => hf a
  abort _ _ _ := fun log hlog _ => ⟨log, rfl, hlog, List.Subset.refl _, nofun⟩
  rethrow f h := h.rethrow f

/-- Work on an answer can start where its key is neither kept nor being worked on. -/
theorem Log.Sound.started {log : Log} (hlog : log.Sound S g) (hsettled : log.Settled around) {r : Request}
    (hr : S r) (hfind : log.cache.find? r.key = none)
    (haround : ∀ key ∈ around, r.kind.rank < key.kind.rank) :
    (log.started r around).Sound S g ∧ (log.started r around).Settled (r.key :: around) := by
  have hnew : r.key ∉ log.works.map Work.key := by
    intro hmem
    obtain ⟨work, hwork, hkey⟩ := List.mem_map.mp hmem
    rcases hsettled work hwork with hkept | hwithin
    · rw [hkey, hfind] at hkept
      cases hkept
    · exact Nat.lt_irrefl _ (haround r.key (hkey ▸ hwithin))
  have hkeys : (log.started r around).works.map Work.key = log.works.map Work.key ++ [r.key] :=
    List.map_append
  refine ⟨⟨hlog.cache, ?_, ?_, ?_, hlog.answers, ?_⟩, ?_⟩
  · rw [hkeys, List.nodup_append]
    refine ⟨hlog.once, List.pairwise_singleton _ _, fun key hkey key' hkey' heq => ?_⟩
    rw [heq, List.mem_singleton.mp hkey'] at hkey
    exact hnew hkey
  · exact List.forall_mem_append.mpr ⟨hlog.inner, List.forall_mem_singleton.mpr haround⟩
  · intro entry hentry
    rw [hkeys]
    exact List.mem_append_left _ (hlog.worked entry hentry)
  · exact List.forall_mem_append.mpr ⟨hlog.scope, List.forall_mem_singleton.mpr ⟨r, hr, rfl⟩⟩
  · refine List.forall_mem_append.mpr ⟨fun work hwork => ?_, ?_⟩
    · exact (hsettled work hwork).imp_right (List.mem_cons_of_mem _)
    · exact List.forall_mem_singleton.mpr (Or.inr List.mem_cons_self)

/-- Work on an answer ends when the answer is kept. -/
theorem Log.Sound.kept {log : Log} (hlog : log.Sound S g) {r : Request} (hr : S r)
    (hproper : r.Proper Args.Own) (hworked : r.key ∈ log.works.map Work.key) (hsettled : log.Settled (r.key :: around))
    {kept : Option Handle} (hfresh : fresh g r = .ok kept) :
    Log.Sound S g { log with cache := log.cache.insert r.key kept } ∧
      Log.Settled around { log with cache := log.cache.insert r.key kept } := by
  refine ⟨⟨hlog.cache.insert Args.distinct_own hproper hfresh, hlog.once, hlog.inner, ?_, ?_, hlog.scope⟩,
    fun work hwork => ?_⟩
  · exact List.forall_mem_append.mpr ⟨hlog.worked, List.forall_mem_singleton.mpr hworked⟩
  · exact List.forall_mem_append.mpr ⟨hlog.answers, List.forall_mem_singleton.mpr ⟨r, hr, rfl, hfresh⟩⟩
  · rcases hsettled work hwork with hkept | hwithin
    · exact Or.inl (isSome_find?_insert (Or.inl hkept))
    · rcases List.mem_cons.mp hwithin with hkey | hwithin
      · exact Or.inl (isSome_find?_insert (Or.inr hkey))
      · exact Or.inr hwithin

/-! ## Answers -/

/-- A set of proper requests with all that is asked for while they are answered. -/
structure Scope (S : Request → Prop) (g : TypeGraph) : Prop where
  proper : ∀ r, S r → r.Proper Args.Own
  supports : ∀ r, S r → Supports S g r

variable (hS : Scope S g)

include hS

/-- An answer is worked out within work of higher ranks only. -/
theorem tracks_observeWithin : ∀ (levels : Nat) (around : List Key) (r : Request), S r →
    r.kind.rank < levels → (∀ key ∈ around, r.kind.rank < key.kind.rank) →
      Tracks S g around (observeWithin g levels around r) (fresh g r) := by
  intro levels
  induction levels with
  | zero => exact fun _ _ _ h => absurd h (Nat.not_lt_zero _)
  | succ levels ih =>
    intro around r hr hlevels haround log hlog hsettled
    cases hfind : log.cache.find? r.key with
    | some kept =>
      rw [hlog.cache r (hS.proper r hr) kept hfind, run_observe_of_find?_eq_some hfind]
      exact ⟨log, rfl, hlog, List.Subset.refl _, fun _ => hsettled⟩
    | none =>
      have hbuild : Tracks S g (r.key :: around) (build g (observeWithin g levels (r.key :: around)) r)
          (fresh g r) := by
        rw [fresh_eq_build]
        -- What is asked for on the way ranks lower than the request, and so than all that is around it.
        refine Correspondence.Within.build (R := .tracking S g _) ⟨fun r' hr' hrank => ?_⟩ (hS.supports r hr)
        refine ih (r.key :: around) r' hr' (Nat.lt_of_lt_of_le hrank (Nat.le_of_lt_succ hlevels)) ?_
        exact List.forall_mem_cons.mpr ⟨hrank, fun key hkey => Nat.lt_trans hrank (haround key hkey)⟩
      obtain ⟨hstarted, hwithin⟩ := hlog.started hsettled hr hfind haround
      obtain ⟨log', hrun, hlog', hworks, hsettled'⟩ := hbuild (log.started r around) hstarted hwithin
      have hgrown : log.works ⊆ log'.works := List.Subset.trans (List.subset_append_left _ _) hworks
      rw [run_observe_of_find?_eq_none hfind]
      cases hfresh : fresh g r with
      | error e =>
        -- Work that fails stays in the log without an answer; the log is settled only where a run goes on.
        rw [hfresh] at hrun
        exact ⟨log', run_bind_error hrun, hlog', hgrown, nofun⟩
      | ok kept =>
        rw [hfresh] at hrun hsettled'
        have hworked : r.key ∈ log'.works.map Work.key :=
          List.mem_map_of_mem (hworks (List.mem_append_right _ (List.mem_singleton_self _)))
        obtain ⟨hkept, hdone⟩ := hlog'.kept hr (hS.proper r hr) hworked (hsettled' rfl) hfresh
        exact ⟨_, run_bind_ok hrun, hkept, hgrown, fun _ => hdone⟩

/-- With three levels, every request of a scope is answered. -/
theorem within_observe {levels : Nat} (hlevels : 3 ≤ levels) :
    (Correspondence.tracking S g []).Within S 3 (observe g levels) (fresh g) :=
  ⟨fun r hr hrank => tracks_observeWithin hS levels [] r hr (by omega) nofun⟩

end Tracks

end OpenCrud.Generate
