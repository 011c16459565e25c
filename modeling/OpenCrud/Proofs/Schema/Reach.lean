import Mathlib.Data.List.Nodup
import Mathlib.Data.List.Perm.Subperm
import Mathlib.Data.List.TakeWhile
import OpenCrud.Proofs.Computation
import OpenCrud.Schema.Reach

/-!
# A walk finds what it can reach

Every reference on the stack of a walk is found in the end, with all that is reached from it, and nothing is
found twice. A walk takes a limited number of steps, so this needs a bound: a list of all the references that
the walk can come upon, no longer than the number of steps (`World`).

The invariant of a walk is that the references of what was found are found too, or still on the stack.
-/

namespace OpenCrud.Schema.Reach

variable {ρ ε : Type}

/-! ## Invariants -/

/-- References that all have types, that refer to each other only, and that are all in a list. -/
structure World (define : ρ → Except ε (NamedType ρ)) (P : ρ → Prop) (bound : List ρ) : Prop where
  defined : ∀ ref, P ref → ∃ t, define ref = .ok t
  closed : ∀ ref t, P ref → define ref = .ok t → ∀ y ∈ t.body.refs, P y
  mem : ∀ ref, P ref → ref ∈ bound

/-- The references found by a walk. -/
def Found.refs (found : Found ρ) : List ρ := found.map Prod.fst

/-- Found types that are the types of their references, no reference twice. -/
structure Found.Valid (define : ρ → Except ε (NamedType ρ)) (P : ρ → Prop) (found : Found ρ) :
    Prop where
  nodup : found.refs.Nodup
  entry : ∀ e ∈ found, P e.1 ∧ define e.1 = .ok e.2

/-- What a walk from a stack makes of what was found before. -/
structure Walked (define : ρ → Except ε (NamedType ρ)) (P : ρ → Prop) (skip : ρ → Bool)
    (found : Found ρ) (stack : List ρ) (result : Found ρ) : Prop where
  valid : result.Valid define P
  kept : found.refs ⊆ result.refs
  stack : ∀ y ∈ stack, skip y = true ∨ y ∈ result.refs
  closed : ∀ e ∈ result, ∀ y ∈ e.2.body.refs, skip y = true ∨ y ∈ result.refs

variable {define : ρ → Except ε (NamedType ρ)} {P : ρ → Prop} {bound : List ρ}

theorem Found.Valid.nil : Found.Valid define P [] := ⟨List.nodup_nil, nofun⟩

/-- A reference that was not found yet can be added with its type. -/
theorem Found.Valid.concat {found : Found ρ} (h : found.Valid define P) {ref : ρ} {t : NamedType ρ}
    (hnew : ref ∉ found.refs) (href : P ref) (hdefine : define ref = .ok t) :
    Found.Valid define P (found ++ [(ref, t)]) := by
  refine ⟨?_, fun e he => ?_⟩
  · rw [Found.refs, List.map_append, List.nodup_append]
    refine ⟨h.nodup, List.nodup_singleton _, fun a ha b hb => ?_⟩
    rintro rfl
    rw [List.mem_singleton.mp hb] at ha
    exact hnew ha
  · rcases List.mem_append.mp he with he | he
    · exact h.entry e he
    · rw [List.mem_singleton.mp he]
      exact ⟨href, hdefine⟩

/-- A walk that has found as many types as there are has found them all. -/
theorem Found.Valid.mem_of_length_le {found : Found ρ} (hmem : ∀ ref, P ref → ref ∈ bound)
    (h : found.Valid define P) (hlength : bound.length ≤ found.length) {ref : ρ} (href : P ref) :
    ref ∈ found.refs := by
  have hsub : found.refs ⊆ bound := by
    intro y hy
    obtain ⟨e, he, rfl⟩ := List.mem_map.mp hy
    exact hmem e.1 (h.entry e he).1
  have hperm := (List.subperm_of_subset h.nodup hsub).perm_of_length_le
    (by rw [Found.refs, List.length_map]; exact hlength)
  exact hperm.mem_iff.mpr (hmem ref href)

/-! ## Steps of a walk -/

/-- The references of what was found are to be skipped, found too, or still on the stack. -/
def Found.ClosedUpTo (skip : ρ → Bool) (found : Found ρ) (stack : List ρ) : Prop :=
  ∀ e ∈ found, ∀ y ∈ e.2.body.refs, skip y = true ∨ y ∈ found.refs ∨ y ∈ stack

variable {skip : ρ → Bool} {found : Found ρ} {stack : List ρ}

theorem Found.refs_concat (ref : ρ) (t : NamedType ρ) :
    Found.refs (found ++ [(ref, t)]) = found.refs ++ [ref] :=
  List.map_append

/-- The references of a type that is found go to the stack, so none of them is lost. -/
theorem Found.ClosedUpTo.concat {rest : List ρ} {ref : ρ} {t : NamedType ρ}
    (h : found.ClosedUpTo skip stack)
    (hpassed : ∀ y ∈ stack, skip y = true ∨ y ∈ found.refs ∨ y = ref ∨ y ∈ rest) :
    Found.ClosedUpTo skip (found ++ [(ref, t)]) (t.body.refs ++ rest) := by
  intro e he y hy
  rw [Found.refs_concat]
  rcases List.mem_append.mp he with he | he
  · rcases h e he y hy with hy | hy | hy
    · exact Or.inl hy
    · exact Or.inr (Or.inl (List.mem_append_left _ hy))
    · have hy := hpassed y hy
      simp only [List.mem_append, List.mem_singleton]
      tauto
  · rw [List.mem_singleton.mp he] at hy
    exact Or.inr (Or.inr (List.mem_append_left _ hy))

/-- A walk can stop when nothing on its stack is left to be found. -/
theorem Walked.stop (hfound : found.Valid define P) (hclosed : found.ClosedUpTo skip stack)
    (hall : ∀ y ∈ stack, skip y = true ∨ y ∈ found.refs) : Walked define P skip found stack found := by
  refine ⟨hfound, List.Subset.refl _, hall, fun e he y hy => ?_⟩
  rcases hclosed e he y hy with hy | hy | hy
  · exact Or.inl hy
  · exact Or.inr hy
  · exact hall y hy

/-- A walk goes on with a reference that is new, and with the references of its type. -/
theorem Walked.step {rest : List ρ} {ref : ρ} {t : NamedType ρ} {result : Found ρ}
    (h : Walked define P skip (found ++ [(ref, t)]) (t.body.refs ++ rest) result)
    (hpassed : ∀ y ∈ stack, skip y = true ∨ y ∈ found.refs ∨ y = ref ∨ y ∈ rest) :
    Walked define P skip found stack result := by
  have hkept : ∀ y, y ∈ found.refs ∨ y = ref → y ∈ result.refs := by
    intro y hy
    refine h.kept ?_
    rw [Found.refs_concat, List.mem_append, List.mem_singleton]
    exact hy
  refine ⟨h.valid, fun y hy => hkept y (Or.inl hy), fun y hy => ?_, h.closed⟩
  rcases hpassed y hy with hy | hy | hy | hy
  · exact Or.inl hy
  · exact Or.inr (hkept y (Or.inl hy))
  · exact Or.inr (hkept y (Or.inr hy))
  · exact h.stack y (List.mem_append_right _ hy)

/-- Dropping what is passed leaves the first reference that is not. -/
theorem mem_of_dropWhile_eq_cons {α : Type} {p : α → Bool} {l rest : List α} {a : α}
    (h : l.dropWhile p = a :: rest) :
    p a = false ∧ (∀ y ∈ a :: rest, y ∈ l) ∧ ∀ y ∈ l, p y = true ∨ y = a ∨ y ∈ rest := by
  have hsplit := List.takeWhile_append_dropWhile (p := p) (l := l)
  have hhead := List.head?_dropWhile_not p l
  rw [h] at hsplit
  simp only [h, List.head?_cons] at hhead
  refine ⟨hhead, fun y hy => ?_, fun y hy => ?_⟩
  · rw [← hsplit]
    exact List.mem_append_right _ hy
  · rw [← hsplit, List.mem_append, List.mem_cons] at hy
    exact hy.imp_left List.mem_takeWhile_imp

/-! ## Walks -/

variable [DecidableEq ρ]

theorem Found.has_iff {ref : ρ} : found.has ref = true ↔ ref ∈ found.refs := by
  simp [Found.has, Found.refs]

/-- A walk stops when there is nothing on the stack but what is skipped or found. -/
theorem walk_of_dropWhile_eq_nil {m : Type → Type} [Monad m] {define : ρ → m (NamedType ρ)}
    (h : stack.dropWhile (fun ref => skip ref || found.has ref) = []) (steps : Nat) :
    walk define skip steps stack found = pure found := by
  cases steps with
  | zero => rfl
  | succ steps =>
    unfold walk
    rw [h]

theorem walk_of_dropWhile_eq_cons {m : Type → Type} [Monad m] {define : ρ → m (NamedType ρ)} {ref : ρ}
    {rest : List ρ} (h : stack.dropWhile (fun ref => skip ref || found.has ref) = ref :: rest)
    (steps : Nat) : walk define skip (steps + 1) stack found =
      define ref >>= fun t => walk define skip steps (t.body.refs ++ rest) (found ++ [(ref, t)]) := by
  rw [walk, h]

/-- A reference with which a walk goes on comes from its stack and is new. -/
theorem mem_of_dropWhile {ref : ρ} {rest : List ρ}
    (h : stack.dropWhile (fun ref => skip ref || found.has ref) = ref :: rest) :
    ref ∉ found.refs ∧ ∀ y ∈ ref :: rest, y ∈ stack := by
  obtain ⟨hnew, hrest, _⟩ := mem_of_dropWhile_eq_cons h
  refine ⟨?_, hrest⟩
  rw [← Found.has_iff, (Bool.or_eq_false_iff.mp hnew).2]
  exact Bool.false_ne_true

/-- By induction on the steps: every step that is taken finds one more of the references in the bound. -/
theorem walk_spec (hw : World define P bound) {steps : Nat} (hfound : found.Valid define P)
    (hstack : ∀ y ∈ stack, P y) (hsteps : bound.length ≤ steps + found.length)
    (hclosed : found.ClosedUpTo skip stack) :
    ∃ result, walk define skip steps stack found = .ok result ∧
      Walked define P skip found stack result := by
  induction steps generalizing stack found with
  | zero =>
    -- No step is left, so as much was found as there is.
    have hall : ∀ y ∈ stack, y ∈ found.refs := fun y hy =>
      hfound.mem_of_length_le hw.mem (by omega) (hstack y hy)
    exact ⟨found, rfl, .stop hfound hclosed fun y hy => Or.inr (hall y hy)⟩
  | succ steps ih =>
    unfold walk
    split
    · rename_i hdrop
      refine ⟨found, rfl, .stop hfound hclosed fun y hy => ?_⟩
      have hy := List.dropWhile_eq_nil_iff.mp hdrop y hy
      rwa [Bool.or_eq_true, Found.has_iff] at hy
    · rename_i ref rest hdrop
      obtain ⟨_, _, hpassed⟩ := mem_of_dropWhile_eq_cons hdrop
      obtain ⟨hnew, hrest⟩ := mem_of_dropWhile hdrop
      have hpassed : ∀ y ∈ stack, skip y = true ∨ y ∈ found.refs ∨ y = ref ∨ y ∈ rest := by
        intro y hy
        have hy := hpassed y hy
        rwa [Bool.or_eq_true, Found.has_iff, or_assoc] at hy
      have href : P ref := hstack ref (hrest ref List.mem_cons_self)
      obtain ⟨t, ht⟩ := hw.defined ref href
      have hstack' : ∀ y ∈ t.body.refs ++ rest, P y := by
        intro y hy
        rcases List.mem_append.mp hy with hy | hy
        · exact hw.closed ref t href ht y hy
        · exact hstack y (hrest y (List.mem_cons_of_mem _ hy))
      have hlength : bound.length ≤ steps + (found ++ [(ref, t)]).length := by
        rw [List.length_append, List.length_singleton]
        omega
      obtain ⟨result, hwalk, hresult⟩ :=
        ih (hfound.concat hnew href ht) hstack' hlength (hclosed.concat hpassed)
      refine ⟨result, ?_, hresult.step hpassed⟩
      rw [ht]
      exact hwalk

/-- What a walk has found stays valid, also where it does not find all. -/
theorem Found.Valid.of_walk (hclosed : ∀ ref t, P ref → define ref = .ok t → ∀ y ∈ t.body.refs, P y)
    {steps : Nat} (hfound : found.Valid define P) (hstack : ∀ y ∈ stack, P y) {result : Found ρ}
    (hwalk : walk define skip steps stack found = .ok result) : result.Valid define P := by
  induction steps generalizing stack found with
  | zero =>
    cases hwalk
    exact hfound
  | succ steps ih =>
    cases hdrop : stack.dropWhile fun ref => skip ref || found.has ref with
    | nil =>
      rw [walk_of_dropWhile_eq_nil hdrop] at hwalk
      cases hwalk
      exact hfound
    | cons ref rest =>
      obtain ⟨hnew, hrest⟩ := mem_of_dropWhile hdrop
      have href := hstack ref (hrest ref List.mem_cons_self)
      rw [walk_of_dropWhile_eq_cons hdrop] at hwalk
      obtain ⟨t, ht, hwalk⟩ := bind_eq_ok_iff.mp hwalk
      refine ih (hfound.concat hnew href ht) (List.forall_mem_append.mpr ⟨hclosed ref t href ht, ?_⟩) hwalk
      exact fun y hy => hstack y (hrest y (List.mem_cons_of_mem _ hy))

theorem Found.Valid.of_walkListed (hclosed : ∀ ref t, P ref → define ref = .ok t → ∀ y ∈ t.body.refs, P y)
    {steps : Nat} {listed : List ρ} (hfound : found.Valid define P) (hlisted : ∀ y ∈ listed, P y)
    {result : Found ρ} (hwalk : walkListed define skip steps listed found = .ok result) :
    result.Valid define P := by
  induction listed generalizing found with
  | nil =>
    cases hwalk
    exact hfound
  | cons ref later ih =>
    obtain ⟨href, hlater⟩ := List.forall_mem_cons.mp hlisted
    obtain ⟨found', hfirst, hwalk⟩ := bind_eq_ok_iff.mp hwalk
    exact ih (hfound.of_walk hclosed (List.forall_mem_singleton.mpr href) hfirst) hlater hwalk

/-- By induction on the list: what is left of it waits like what is left on a stack. -/
theorem walkListed_spec (hw : World define P bound) {steps : Nat} (hsteps : bound.length ≤ steps)
    {listed : List ρ} (hfound : found.Valid define P) (hlisted : ∀ y ∈ listed, P y)
    (hclosed : found.ClosedUpTo skip listed) :
    ∃ result, walkListed define skip steps listed found = .ok result ∧
      Walked define P skip found listed result := by
  induction listed generalizing found with
  | nil =>
    exact ⟨found, rfl, .stop hfound hclosed nofun⟩
  | cons ref later ih =>
    have hwaits : ∀ y, (skip y || later.contains y) = true ↔ skip y = true ∨ y ∈ later := by
      intro y
      rw [Bool.or_eq_true, List.contains_iff_mem]
    have href : ∀ y ∈ [ref], P y := by
      intro y hy
      rw [List.mem_singleton.mp hy]
      exact hlisted ref List.mem_cons_self
    -- The walk from one listed type skips those that are listed later: they wait like a stack.
    have hstart : found.ClosedUpTo (fun y => skip y || later.contains y) [ref] := by
      intro e he y hy
      have hy := hclosed e he y hy
      rw [hwaits, List.mem_singleton]
      rw [List.mem_cons] at hy
      tauto
    obtain ⟨first, hwalk, hfirst⟩ :=
      walk_spec hw hfound href (le_trans hsteps (Nat.le_add_right _ _)) hstart
    have hfirst_closed : first.ClosedUpTo skip later := by
      intro e he y hy
      have hy := hfirst.closed e he y hy
      rw [hwaits] at hy
      tauto
    obtain ⟨result, hlater, hresult⟩ := ih hfirst.valid
      (fun y hy => hlisted y (List.mem_cons_of_mem _ hy)) hfirst_closed
    refine ⟨result, ?_, hresult.valid, List.Subset.trans hfirst.kept hresult.kept, ?_, hresult.closed⟩
    · rw [walkListed, hwalk]
      exact hlater
    · intro y hy
      rcases List.mem_cons.mp hy with rfl | hy
      · rcases hfirst.stack y List.mem_cons_self with hy | hy
        · rcases (hwaits y).mp hy with hy | hy
          · exact Or.inl hy
          · exact hresult.stack y hy
        · exact Or.inr (hresult.kept hy)
      · exact hresult.stack y hy

/-- The types reached from listed types and roots: all of them, with their types, and each once. -/
theorem types_spec (hw : World define P bound) {steps : Nat} (hsteps : bound.length ≤ steps)
    {listed roots : List ρ} (hlisted : ∀ y ∈ listed, P y)
    (hroots : ∀ y ∈ roots, P y) :
    ∃ result, types define skip steps listed roots = .ok result ∧
      Walked define P skip [] (listed ++ roots) result := by
  obtain ⟨first, hfirst, hwalked⟩ := walkListed_spec hw hsteps .nil hlisted nofun
  have hclosed : first.ClosedUpTo skip roots := fun e he y hy =>
    (hwalked.closed e he y hy).imp_right Or.inl
  obtain ⟨result, hresult, hrooted⟩ :=
    walk_spec hw hwalked.valid hroots (le_trans hsteps (Nat.le_add_right _ _)) hclosed
  refine ⟨result, ?_, hrooted.valid, List.nil_subset _, fun y hy => ?_, hrooted.closed⟩
  · rw [types, hfirst]
    exact hresult
  · rcases List.mem_append.mp hy with hy | hy
    · exact (hwalked.stack y hy).imp_right fun hy => hrooted.kept hy
    · exact hrooted.stack y hy

/-! ## Repeated names -/

theorem repeatedName?_eq_none_iff {seen names : List String} :
    repeatedName? seen names = none ↔ names.Nodup ∧ ∀ n ∈ names, n ∉ seen := by
  induction names generalizing seen with
  | nil => simp [repeatedName?]
  | cons name names ih =>
    unfold repeatedName?
    split
    · rename_i hseen
      simp only [List.contains_iff_mem] at hseen
      simp [hseen]
    · rename_i hseen
      simp only [List.contains_iff_mem] at hseen
      rw [ih, List.nodup_cons, List.forall_mem_cons]
      constructor
      · rintro ⟨hnodup, hnew⟩
        refine ⟨⟨fun hc => hnew name hc List.mem_cons_self, hnodup⟩, hseen, fun n hn hc => ?_⟩
        exact hnew n hn (List.mem_cons_of_mem _ hc)
      · rintro ⟨⟨hname, hnodup⟩, _, hnew⟩
        refine ⟨hnodup, fun n hn hc => ?_⟩
        rcases List.mem_cons.mp hc with rfl | hc
        · exact hname hn
        · exact hnew n hn hc

end OpenCrud.Schema.Reach
