import OpenCrud.Proofs.Generate.Correspondence

/-!
# Memory is invisible

A run remembers what it answered. This file shows that nobody can tell: from every state that a run can be in,
an answer is the answer to the request by itself (`fresh`), and so is everything that is built on answers.

The invariant is `Cache.Sound`: what is kept under the key of a request is the answer to that request. It
holds because a proper request can be read off its key (`Request.eq_of_key`).
-/

namespace OpenCrud.Generate

/-! ## Keys -/

/-- The arguments that the generators themselves use. -/
def Args.Own (a : Args) : Prop := a = .none ∨ a = .isNested ∨ ∃ required, a = .ofRequired required

/-- The texts of the three kinds of arguments differ, as there are only four of them to compare. -/
theorem Args.distinct_own : Args.Distinct Args.Own where
  none := Or.inl rfl
  isNested := Or.inr (Or.inl rfl)
  ofRequired required := Or.inr (Or.inr ⟨required, rfl⟩)
  eq_of_text := by
    rintro a b (rfl | rfl | ⟨_ | _, rfl⟩) (rfl | rfl | ⟨_ | _, rfl⟩) h <;>
      first | rfl | exact absurd h (by decide)

/-- A proper request is determined by its key. -/
theorem Request.eq_of_key {A : Args → Prop} (hA : Args.Distinct A) {r r' : Request}
    (hr : r.Proper A) (hr' : r'.Proper A) (h : r.key = r'.key) : r = r' := by
  obtain ⟨kind, subject, args⟩ := r
  obtain ⟨kind', subject', args'⟩ := r'
  simp only [Request.key, Key.mk.injEq] at h
  obtain ⟨rfl, hname, htext⟩ := h
  obtain rfl : args = args' := hA.eq_of_text hr.args hr'.args htext
  cases hs : kind.isShared with
  | true =>
    have h1 : subject = "" := hr.subject_eq hs
    have h2 : subject' = "" := hr'.subject_eq hs
    rw [h1, h2]
  | false =>
    have hsub : subject = subject' := by
      cases kind <;> simp_all [Request.typeName, Kind.isShared]
    rw [hsub]

/-! ## Depth of answers -/

/-- Equal computations, where an error ends a computation. -/
def Correspondence.equality {m : Type → Type} [Monad m] [LawfulMonad m] [MonadExceptOf Error m]
    (habort : ∀ {α β : Type} (e : Error) (f f' : α → m β),
      (MonadExcept.throw e >>= f) = (MonadExcept.throw e >>= f')) : Correspondence m m where
  Holds x y := x = y
  pure _ := rfl
  bind h hf := by rw [h, funext hf]
  abort := habort
  rethrow f h := by rw [h]

/-- An answer depends on the answers to requests of a lower rank only. -/
theorem build_congr {g : TypeGraph} {r : Request} {ask ask' : Ask (Except Error)}
    (h : ∀ r' : Request, r'.kind.rank < r.kind.rank → ask r' = ask' r') :
    build g ask r = build g ask' r :=
  Correspondence.holds_build (R := .equality fun _ _ _ => rfl)
    ⟨Args.distinct_own, fun r' _ hk => h r' hk⟩ g

/-- Levels of asking beyond the rank of a request make no difference. -/
theorem freshWithin_eq (g : TypeGraph) (n k : Nat) (r : Request) (hn : r.kind.rank ≤ n)
    (hk : r.kind.rank ≤ k) : freshWithin g n r = freshWithin g k r := by
  induction n generalizing k r with
  | zero =>
    cases k with
    | zero => rfl
    | succ k => exact build_congr fun r' hr' => by omega
  | succ n ih =>
    cases k with
    | zero => exact build_congr fun r' hr' => by omega
    | succ k => exact build_congr fun r' hr' => ih k r' (by omega) (by omega)

/-- The answer to a request is built from the answers to other requests. -/
theorem fresh_eq_build (g : TypeGraph) (r : Request) : fresh g r = build g (fresh g) r := by
  have hr : r.kind.rank ≤ 2 := r.kind.rank_le
  exact build_congr fun r' hr' => freshWithin_eq g 1 2 r' (by omega) (by omega)

/-! ## Sound memory -/

/-- Whatever is kept under the key of a proper request is the answer to it. -/
def Cache.Sound (A : Args → Prop) (g : TypeGraph) (c : Cache) : Prop :=
  ∀ r : Request, r.Proper A → ∀ kept, c.find? r.key = some kept → fresh g r = .ok kept

/-- A run that remembers nothing remembers nothing wrong. -/
theorem Cache.sound_empty (A : Args → Prop) (g : TypeGraph) : Cache.Sound A g {} := by
  intro r _ kept h
  simp [Cache.find?] at h

/-- Keeping an answer makes nothing wrong, since no other proper request has the same key. -/
theorem Cache.Sound.insert {A : Args → Prop} (hA : Args.Distinct A) {g : TypeGraph} {c : Cache}
    (hc : c.Sound A g) {r : Request} (hr : r.Proper A) {kept : Option Handle}
    (h : fresh g r = .ok kept) : (c.insert r.key kept).Sound A g := by
  intro r' hr' kept' hfind
  rw [Cache.find?, Cache.insert, List.lookup_append, Option.or_eq_some_iff] at hfind
  rcases hfind with hfind | ⟨_, hfind⟩
  · exact hc r' hr' kept' hfind
  · -- A key that is already there keeps what it had: the new entry stands behind the old ones.
    by_cases hkey : r'.key = r.key
    · obtain rfl : r' = r := Request.eq_of_key hA hr' hr hkey
      rw [List.lookup_cons_self] at hfind
      rw [h, Option.some.inj hfind]
    · rw [List.lookup_cons, beq_eq_false_iff_ne.mpr hkey] at hfind
      cases hfind

/-- What is kept stays kept, and so does the next answer. -/
theorem isSome_find?_insert {c : Cache} {key key' : Key} {kept : Option Handle}
    (h : (c.find? key').isSome = true ∨ key' = key) : ((c.insert key kept).find? key').isSome = true := by
  change ((c.entries ++ [(key, kept)]).lookup key').isSome = true
  rw [List.lookup_append]
  rcases h with h | rfl
  · obtain ⟨kept', hkept'⟩ := Option.isSome_iff_exists.mp h
    change c.entries.lookup key' = some kept' at hkept'
    rw [hkept']
    rfl
  · rw [List.lookup_cons_self]
    cases c.entries.lookup key' with
    | none => rfl
    | some => rfl

/-! ## One step of a run -/

section Steps

variable {ε σ α β : Type} {x : ExceptT ε (StateM σ) α} {s s' : σ}

theorem run_get : (get : ExceptT ε (StateM σ) σ).run s = (.ok s, s) :=
  rfl

theorem run_bind_ok {f : α → ExceptT ε (StateM σ) β} {a : α} (h : x.run s = (.ok a, s')) :
    (x >>= f).run s = (f a).run s' := by
  rw [ExceptT.run_bind]
  simp only [bind, StateT.bind]
  rw [h]

theorem run_bind_error {f : α → ExceptT ε (StateM σ) β} {e : ε} (h : x.run s = (.error e, s')) :
    (x >>= f).run s = (.error e, s') := by
  rw [ExceptT.run_bind]
  simp only [bind, StateT.bind]
  rw [h]
  rfl

theorem run_tryCatch_ok {f : ε → ExceptT ε (StateM σ) α} {a : α} (h : x.run s = (.ok a, s')) :
    (tryCatch x f).run s = (.ok a, s') := by
  rw [ExceptT.run_tryCatch]
  simp only [bind, StateT.bind]
  rw [h]
  rfl

theorem run_tryCatch_error {f : ε → ExceptT ε (StateM σ) α} {e : ε} (h : x.run s = (.error e, s')) :
    (tryCatch x f).run s = (f e).run s' := by
  rw [ExceptT.run_tryCatch]
  simp only [bind, StateT.bind]
  rw [h]

variable {c c' : Cache}

variable {r : Request} {work : Run (Option Handle)} {kept : Option Handle}

/-- What is remembered is given back, and the work is not done. -/
theorem run_remember_of_find?_eq_some (h : c.find? r.key = some kept) :
    (remember r work).run c = (.ok kept, c) := by
  unfold remember
  rw [run_bind_ok run_get, h]
  rfl

/-- What is not remembered is worked out and kept. -/
theorem run_remember_of_find?_eq_none (h : c.find? r.key = none) :
    (remember r work).run c =
      (work >>= fun answer => modify (·.insert r.key answer) >>= fun _ => pure answer).run c := by
  unfold remember
  rw [run_bind_ok run_get, h]

end Steps

/-! ## Runs and plain computations -/

/-- A run gives the result of a plain computation, from any sound memory, and leaves a sound memory. -/
def Agrees (A : Args → Prop) (g : TypeGraph) {α : Type} (x : Run α) (y : Except Error α) : Prop :=
  ∀ c : Cache, c.Sound A g → (x.run c).1 = y ∧ Cache.Sound A g (x.run c).2

section Agrees

variable {A : Args → Prop} {g : TypeGraph} {α β : Type} {x : Run α} {y : Except Error α}

theorem agrees_of_run {result : Except Error α}
    (h : ∀ c : Cache, c.Sound A g → ∃ c' : Cache, x.run c = (result, c') ∧ c'.Sound A g) :
    Agrees A g x result := by
  intro c hc
  obtain ⟨c', hx, hc'⟩ := h c hc
  rw [hx]
  exact ⟨rfl, hc'⟩

theorem Agrees.exists_run (h : Agrees A g x y) {c : Cache} (hc : c.Sound A g) :
    ∃ c' : Cache, x.run c = (y, c') ∧ c'.Sound A g := by
  obtain ⟨h1, h2⟩ := h c hc
  exact ⟨(x.run c).2, Prod.ext h1 rfl, h2⟩

/-- The second part may start from whatever the first part has remembered, as long as that is sound. -/
theorem Agrees.bind {f : α → Run β} {f' : α → Except Error β} (h : Agrees A g x y)
    (hf : ∀ a, Agrees A g (f a) (f' a)) : Agrees A g (x >>= f) (y >>= f') := by
  refine agrees_of_run fun c hc => ?_
  obtain ⟨c', hx, hc'⟩ := h.exists_run hc
  cases y with
  | ok a =>
    rw [run_bind_ok hx]
    exact (hf a).exists_run hc'
  | error e => exact ⟨c', run_bind_error hx, hc'⟩

theorem Agrees.tryCatch {f : Error → Run α} {f' : Error → Except Error α} (h : Agrees A g x y)
    (hf : ∀ e, Agrees A g (f e) (f' e)) :
    Agrees A g (MonadExcept.tryCatch x f) (MonadExcept.tryCatch y f') := by
  refine agrees_of_run fun c hc => ?_
  obtain ⟨c', hx, hc'⟩ := h.exists_run hc
  cases y with
  | ok a => exact ⟨c', run_tryCatch_ok hx, hc'⟩
  | error e =>
    rw [run_tryCatch_error hx]
    exact (hf e).exists_run hc'

instance lawfulMonad_run : LawfulMonad Run := inferInstance

/-- Runs correspond to the plain computations that they agree with. -/
def Correspondence.memory (A : Args → Prop) (g : TypeGraph) :
    Correspondence Run (Except Error) where
  Holds x y := Agrees A g x y
  pure _ := fun _ hc => ⟨rfl, hc⟩
  bind := Agrees.bind
  abort _ _ _ := fun _ hc => ⟨rfl, hc⟩
  rethrow _ h := h.tryCatch fun _ _ hc => ⟨rfl, hc⟩

/-- What is worked out once and kept is the same answer from then on. -/
theorem Agrees.remember (hA : Args.Distinct A) {r : Request} (hr : r.Proper A)
    {work : Run (Option Handle)} (h : Agrees A g work (fresh g r)) :
    Agrees A g (remember r work) (fresh g r) := by
  refine agrees_of_run fun c hc => ?_
  cases hfind : c.find? r.key with
  | some kept =>
    rw [run_remember_of_find?_eq_some hfind, hc r hr kept hfind]
    exact ⟨c, rfl, hc⟩
  | none =>
    -- What is worked out may itself ask and remember, so the answer is kept in a later state.
    rw [run_remember_of_find?_eq_none hfind]
    obtain ⟨c', hx, hc'⟩ := h.exists_run hc
    cases hfresh : fresh g r with
    | error e =>
      rw [hfresh] at hx
      exact ⟨c', run_bind_error hx, hc'⟩
    | ok kept =>
      rw [hfresh] at hx
      rw [run_bind_ok hx]
      exact ⟨c'.insert r.key kept, rfl, hc'.insert hA hr hfresh⟩

/-! ## Answers -/

/-- The answers of a run with enough levels are those of the requests by themselves. -/
theorem agrees_answerWithin (hA : Args.Distinct A) : ∀ (n : Nat) (r : Request),
    r.Proper A → r.kind.rank ≤ n → Agrees A g (answerWithin g n r) (fresh g r) := by
  have hremember : ∀ (r : Request) (ask : Ask Run) (ask' : Ask (Except Error)), r.Proper A →
      (∀ r' : Request, r'.Proper A → r'.kind.rank < r.kind.rank → Agrees A g (ask r') (ask' r')) →
        build g ask' r = fresh g r → Agrees A g (Generate.remember r (build g ask r)) (fresh g r) := by
    intro r ask ask' hr h hfresh
    refine Agrees.remember hA hr ?_
    rw [← hfresh]
    exact Correspondence.holds_build (R := .memory A g) ⟨hA, h⟩ g
  intro n
  induction n with
  | zero =>
    intro r hr hn
    refine hremember r _ (fun _ => pure none) hr (fun r' _ hk => by omega) ?_
    exact freshWithin_eq g 0 2 r hn r.kind.rank_le
  | succ n ih =>
    intro r hr hn
    refine hremember r _ (freshWithin g n) hr (fun r' hr' hk => ?_) ?_
    · rw [freshWithin_eq g n 2 r' (by omega) r'.kind.rank_le]
      exact ih r' hr' (by omega)
    · exact freshWithin_eq g (n + 1) 2 r hn r.kind.rank_le

/-- The requests of a run are answered as by themselves. -/
theorem asks_answer (hA : Args.Distinct A) (g : TypeGraph) :
    (Correspondence.memory A g).Asks A 3 (answer g) (fresh g) :=
  ⟨hA, fun r hr _ => agrees_answerWithin hA 2 r hr r.kind.rank_le⟩

end Agrees

/-- The schema of a graph is what the answers of the requests by themselves lead to. -/
theorem schema_eq_assemble (g : TypeGraph) : schema g = assemble g (fresh g) := by
  have h : Agrees Args.Own g (assemble g (answer g)) (assemble g (fresh g)) :=
    Correspondence.holds_assemble (asks_answer Args.distinct_own g) g
  exact (h {} (Cache.sound_empty _ g)).1

/-! ## States of a run -/

/-- The states of a run: what it remembers after any requests and after looking at any types. -/
inductive Cache.Reached (g : TypeGraph) : Cache → Prop
  | start : Cache.Reached g {}
  | answer {c : Cache} {r : Request} :
    Cache.Reached g c → r.Proper Args.Own → Cache.Reached g ((answer g r).run c).2
  | define {c : Cache} (h : Handle) :
    Cache.Reached g c → Cache.Reached g ((define g (Generate.answer g) h).run c).2

/-- Every use of a run keeps its memory sound. -/
theorem Cache.Reached.sound {g : TypeGraph} {c : Cache} (h : c.Reached g) :
    c.Sound Args.Own g := by
  have hasks := asks_answer Args.distinct_own g
  induction h with
  | start => exact Cache.sound_empty _ g
  | answer _ hr ih => exact (hasks.holds _ hr (Nat.lt_succ_of_le (Kind.rank_le _)) _ ih).2
  | define x _ ih => exact (Correspondence.holds_define hasks g x _ ih).2

section Reached

variable {g : TypeGraph} {c : Cache} (hc : c.Reached g)

include hc

/-- An answer is the same from every state of a run. -/
theorem run_answer {r : Request} (hr : r.Proper Args.Own) :
    ((answer g r).run c).1 = fresh g r :=
  ((asks_answer Args.distinct_own g).holds r hr (Nat.lt_succ_of_le r.kind.rank_le) c hc.sound).1

theorem run_define (x : Handle) :
    ((define g (answer g) x).run c).1 = define g (fresh g) x :=
  (Correspondence.holds_define (asks_answer Args.distinct_own g) g x c hc.sound).1

theorem run_inputFields (r : Request) (t : ModelType) :
    ((inputFields g (answer g) r t).run c).1 = inputFields g (fresh g) r t :=
  (Correspondence.holds_inputFields (asks_answer Args.distinct_own g) g r t c hc.sound).1

theorem run_wouldBeEmpty (r : Request) (t : ModelType) :
    ((wouldBeEmpty g (answer g) r t).run c).1 = wouldBeEmpty g (fresh g) r t := by
  have hasks := (asks_answer Args.distinct_own g).mono (Nat.le_succ_of_le r.kind.rank_le)
  exact (Correspondence.holds_wouldBeEmpty hasks g t c hc.sound).1

end Reached

end OpenCrud.Generate
