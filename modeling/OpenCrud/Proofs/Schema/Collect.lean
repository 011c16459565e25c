import OpenCrud.Proofs.Schema.Reach

/-!
# The order in which types are collected

A schema starts with the types that it is given. Each of them in turn is taken out and put at the end, followed by
all that it refers to and that is not there yet, deep first; what the root types refer to comes last (`Collected`).
So what is given keeps its order, whatever refers to what. Main results: a walk collects in this way
(`collected_of_types`), and the order of what is collected (`Collected.sublist`, `Collected.sublist_roots`).
-/

namespace OpenCrud.Schema.Reach

variable {ρ ε : Type}

/-! ## Collections -/

/-- Collects references, one after the other, into what is present: a new one is put at the end, and what it refers
to is collected before the next one. -/
inductive Collects (define : ρ → Except ε (NamedType ρ)) (skip : ρ → Bool) : List ρ → List ρ → List ρ → Prop
  | nil {present : List ρ} : Collects define skip [] present present
  | old {ref : ρ} {refs present result : List ρ} (hold : skip ref = true ∨ ref ∈ present)
    (hrest : Collects define skip refs present result) : Collects define skip (ref :: refs) present result
  | new {ref : ρ} {refs present inner result : List ρ} {t : NamedType ρ} (hskip : skip ref = false)
    (hnew : ref ∉ present) (ht : define ref = .ok t)
    (hinner : Collects define skip t.body.refs (present ++ [ref]) inner)
    (hrest : Collects define skip refs inner result) : Collects define skip (ref :: refs) present result

variable {define : ρ → Except ε (NamedType ρ)} {skip : ρ → Bool}

namespace Collects

variable {ref : ρ} {refs more present result : List ρ}

/-- What is present stays, and what is new comes after it. -/
theorem exists_new (h : Collects define skip refs present result) :
    ∃ new, result = present ++ new ∧ ∀ y ∈ new, skip y = false ∧ y ∉ present := by
  induction h with
  | nil => exact ⟨[], (List.append_nil _).symm, nofun⟩
  | old _ _ ih => exact ih
  | @new ref refs present inner result t hskip hnew _ _ _ ihinner ihrest =>
    obtain ⟨deep, rfl, hdeep⟩ := ihinner
    obtain ⟨rest, rfl, hrest⟩ := ihrest
    refine ⟨ref :: (deep ++ rest), by simp only [List.append_assoc, List.cons_append, List.nil_append], ?_⟩
    refine List.forall_mem_cons.mpr ⟨⟨hskip, hnew⟩, List.forall_mem_append.mpr ⟨fun y hy => ?_, fun y hy => ?_⟩⟩
    · exact ⟨(hdeep y hy).1, fun hc => (hdeep y hy).2 (List.mem_append_left _ hc)⟩
    · exact ⟨(hrest y hy).1, fun hc => (hrest y hy).2 (List.mem_append_left _ (List.mem_append_left _ hc))⟩

theorem subset (h : Collects define skip refs present result) : present ⊆ result := by
  obtain ⟨new, rfl, _⟩ := h.exists_new
  exact List.subset_append_left _ _

/-- A new reference is put right after what is present. -/
theorem exists_first (h : Collects define skip (ref :: refs) present result) (hskip : skip ref = false)
    (hnew : ref ∉ present) : ∃ new, result = present ++ ref :: new := by
  cases h with
  | old hold =>
    rw [hskip] at hold
    exact absurd hold (not_or.mpr ⟨Bool.false_ne_true, hnew⟩)
  | new _ _ _ hinner hrest =>
    obtain ⟨deep, rfl, _⟩ := hinner.exists_new
    obtain ⟨rest, rfl, _⟩ := hrest.exists_new
    exact ⟨deep ++ rest, by simp only [List.append_assoc, List.cons_append, List.nil_append]⟩

/-- All references are collected. -/
theorem mem (h : Collects define skip refs present result) : ∀ y ∈ refs, skip y = true ∨ y ∈ result := by
  induction h with
  | nil => exact nofun
  | old hold hrest ih => exact List.forall_mem_cons.mpr ⟨hold.imp_right (hrest.subset ·), ih⟩
  | new _ _ _ hinner hrest _ ih =>
    have href := hrest.subset (hinner.subset (List.mem_append_right _ (List.mem_singleton_self _)))
    exact List.forall_mem_cons.mpr ⟨.inr href, ih⟩

/-- What holds of references and of all that they refer to holds of what is collected. -/
theorem forall_mem {P : ρ → Prop} (hclosed : ∀ ref t, P ref → define ref = .ok t → ∀ y ∈ t.body.refs, P y)
    (h : Collects define skip refs present result) (hrefs : ∀ y ∈ refs, P y) (hpresent : ∀ y ∈ present, P y) :
    ∀ y ∈ result, P y := by
  induction h with
  | nil => exact hpresent
  | old _ _ ih => exact ih (List.forall_mem_cons.mp hrefs).2 hpresent
  | new _ _ ht _ _ ihinner ihrest =>
    obtain ⟨href, hrest⟩ := List.forall_mem_cons.mp hrefs
    refine ihrest hrest (ihinner (hclosed _ _ href ht) (List.forall_mem_append.mpr ⟨hpresent, ?_⟩))
    exact List.forall_mem_singleton.mpr href

/-- References are collected in two parts. -/
theorem split (h : Collects define skip (refs ++ more) present result) :
    ∃ next, Collects define skip refs present next ∧ Collects define skip more next result := by
  induction refs generalizing present with
  | nil => exact ⟨present, .nil, h⟩
  | cons ref refs ih =>
    cases h with
    | old hold hrest =>
      obtain ⟨next, hfirst, hmore⟩ := ih hrest
      exact ⟨next, .old hold hfirst, hmore⟩
    | new hskip hnew ht hinner hrest =>
      obtain ⟨next, hfirst, hmore⟩ := ih hrest
      exact ⟨next, .new hskip hnew ht hinner hfirst, hmore⟩

/-- References that are not new make no difference. -/
theorem append_old (hold : ∀ y ∈ refs, skip y = true ∨ y ∈ present)
    (h : Collects define skip more present result) : Collects define skip (refs ++ more) present result := by
  induction refs with
  | nil => exact h
  | cons ref refs ih =>
    obtain ⟨href, hrest⟩ := List.forall_mem_cons.mp hold
    exact .old href (ih hrest)

end Collects

/-! ## Listed references -/

variable [DecidableEq ρ]

/-- Takes listed references out of what is present, one after the other, and collects each of them anew. -/
inductive CollectsListed (define : ρ → Except ε (NamedType ρ)) (skip : ρ → Bool) : List ρ → List ρ → List ρ → Prop
  | nil {present : List ρ} : CollectsListed define skip [] present present
  | cons {ref : ρ} {later present next result : List ρ}
    (hfirst : Collects define skip [ref] (present.erase ref) next)
    (hlater : CollectsListed define skip later next result) : CollectsListed define skip (ref :: later) present result

/-- What is collected from listed references, which are present from the start, and then from roots. -/
def Collected (define : ρ → Except ε (NamedType ρ)) (skip : ρ → Bool) (listed roots result : List ρ) : Prop :=
  ∃ own, CollectsListed define skip listed listed own ∧ Collects define skip roots own result

variable {listed roots present result : List ρ}

theorem CollectsListed.forall_mem {P : ρ → Prop}
    (hclosed : ∀ ref t, P ref → define ref = .ok t → ∀ y ∈ t.body.refs, P y)
    (h : CollectsListed define skip listed present result) (hlisted : ∀ y ∈ listed, P y)
    (hpresent : ∀ y ∈ present, P y) : ∀ y ∈ result, P y := by
  induction h with
  | nil => exact hpresent
  | cons hfirst _ ih =>
    obtain ⟨href, hlater⟩ := List.forall_mem_cons.mp hlisted
    refine ih hlater (hfirst.forall_mem hclosed (List.forall_mem_singleton.mpr href) fun y hy => ?_)
    exact hpresent y (List.mem_of_mem_erase hy)

/-- Listed references are collected in their order: what is collected from one of them finds the later ones present,
where they wait for their turn. -/
theorem CollectsListed.exists_new {done : List ρ} (hnodup : listed.Nodup)
    (hlisted : ∀ y ∈ listed, skip y = false ∧ y ∉ done)
    (h : CollectsListed define skip listed (listed ++ done) result) :
    ∃ new, result = done ++ new ∧ listed.Sublist new := by
  induction listed generalizing done with
  | nil =>
    cases h
    exact ⟨[], (List.append_nil _).symm, .slnil⟩
  | cons ref later ih =>
    obtain ⟨hlater, hnodup⟩ := List.nodup_cons.mp hnodup
    obtain ⟨⟨hskip, href⟩, hrest⟩ := List.forall_mem_cons.mp hlisted
    cases h with
    | cons hfirst h =>
      rw [List.cons_append, List.erase_cons_head] at hfirst
      obtain ⟨new, rfl⟩ := hfirst.exists_first hskip fun hc => (List.mem_append.mp hc).elim hlater href
      obtain ⟨_, heq, hnew⟩ := hfirst.exists_new
      obtain rfl := List.append_cancel_left heq
      have hwaiting : ∀ y ∈ later, skip y = false ∧ y ∉ done ++ ref :: new := by
        intro y hy
        refine ⟨(hrest y hy).1, fun hc => ?_⟩
        rcases List.mem_append.mp hc with hc | hc
        · exact (hrest y hy).2 hc
        · exact (hnew y hc).2 (List.mem_append_left _ hy)
      rw [List.append_assoc] at h
      obtain ⟨last, rfl, hsublist⟩ := ih hnodup hwaiting h
      refine ⟨ref :: new ++ last, List.append_assoc _ _ _, ?_⟩
      exact (hsublist.trans (List.sublist_append_right _ _)).cons_cons ref

/-- What is listed is collected in its order. -/
theorem Collected.sublist (h : Collected define skip listed roots result) (hnodup : listed.Nodup)
    (hlisted : ∀ y ∈ listed, skip y = false) : listed.Sublist result := by
  obtain ⟨own, hown, hroots⟩ := h
  have hown : CollectsListed define skip listed (listed ++ []) own := by rwa [List.append_nil]
  obtain ⟨_, rfl, hsublist⟩ := hown.exists_new hnodup fun y hy => ⟨hlisted y hy, List.not_mem_nil⟩
  obtain ⟨new, rfl, _⟩ := hroots.exists_new
  exact hsublist.trans (List.sublist_append_left _ _)

/-- After all that is collected from what is listed come two roots that nothing listed leads to. -/
theorem Collected.sublist_roots {P : ρ → Prop}
    (hclosed : ∀ ref t, P ref → define ref = .ok t → ∀ y ∈ t.body.refs, P y) {first second : ρ}
    (h : Collected define skip listed (first :: second :: roots) result) (hnodup : listed.Nodup)
    (hlisted : ∀ y ∈ listed, P y ∧ skip y = false) (hfirst : ¬P first ∧ skip first = false)
    (hsecond : ¬P second ∧ skip second = false) (hne : second ≠ first) :
    (listed ++ [first, second]).Sublist result := by
  obtain ⟨own, hown, hroots⟩ := h
  have hsublist : listed.Sublist own :=
    Collected.sublist ⟨own, hown, .nil⟩ hnodup fun y hy => (hlisted y hy).2
  have hall : ∀ y ∈ own, P y :=
    hown.forall_mem hclosed (fun y hy => (hlisted y hy).1) fun y hy => (hlisted y hy).1
  have hmem : second ∈ result := by
    refine (hroots.mem second (List.mem_cons_of_mem _ List.mem_cons_self)).resolve_left ?_
    exact Bool.eq_false_iff.mp hsecond.2
  obtain ⟨new, rfl⟩ := hroots.exists_first hfirst.2 fun hc => hfirst.1 (hall _ hc)
  have hnew := (List.mem_append.mp hmem).resolve_left fun hc => hsecond.1 (hall _ hc)
  exact hsublist.append ((List.singleton_sublist.mpr ((List.mem_cons.mp hnew).resolve_left hne)).cons_cons first)

/-! ## Walks -/

section Walks

variable {P : ρ → Prop} {bound : List ρ} (hw : World define P bound) {steps : Nat} {stack later : List ρ}
  {found walked : Found ρ}

theorem passed_iff {y : ρ} : ((skip y || later.contains y) || found.has y) = true ↔
    skip y = true ∨ y ∈ later ++ found.refs := by
  rw [Bool.or_eq_true, Bool.or_eq_true, List.contains_iff_mem, Found.has_iff, List.mem_append, or_assoc]

/-- A walk stops where nothing on its stack is left to be collected. -/
theorem Collects.stop (hdrop : stack.dropWhile (fun y => (skip y || later.contains y) || found.has y) = []) :
    Collects define skip stack (later ++ found.refs) (later ++ found.refs) := by
  have hold : ∀ y ∈ stack, skip y = true ∨ y ∈ later ++ found.refs := fun y hy =>
    passed_iff.mp (List.dropWhile_eq_nil_iff.mp hdrop y hy)
  exact List.append_nil stack ▸ .append_old hold .nil

/-- A walk goes on with a reference that is new, and collects it with what its type refers to. -/
theorem Collects.step {ref : ρ} {rest : List ρ} {t : NamedType ρ}
    (hdrop : stack.dropWhile (fun y => (skip y || later.contains y) || found.has y) = ref :: rest)
    (ht : define ref = .ok t)
    (h : Collects define skip (t.body.refs ++ rest) (later ++ Found.refs (found ++ [(ref, t)])) result) :
    Collects define skip stack (later ++ found.refs) result := by
  have hold : ∀ y ∈ stack.takeWhile fun y => (skip y || later.contains y) || found.has y,
      skip y = true ∨ y ∈ later ++ found.refs := by
    intro y hy
    have hpassed := List.mem_takeWhile_imp hy
    exact passed_iff.mp hpassed
  have hnew := not_or.mp (passed_iff.not.mp (Bool.eq_false_iff.mp (mem_of_dropWhile_eq_cons hdrop).1))
  rw [Found.refs_concat, ← List.append_assoc] at h
  obtain ⟨inner, hinner, hrest⟩ := h.split
  rw [← List.takeWhile_append_dropWhile (p := fun y => (skip y || later.contains y) || found.has y) (l := stack), hdrop]
  exact .append_old hold (.new (Bool.eq_false_iff.mpr hnew.1) hnew.2 ht hinner hrest)

include hw

/-- A walk collects into what was found and what waits for its turn. -/
theorem collects_of_walk (hfound : found.Valid define P) (hstack : ∀ y ∈ stack, P y)
    (hsteps : bound.length ≤ steps + found.length)
    (hwalk : walk define (fun y => skip y || later.contains y) steps stack found = .ok walked) :
    Collects define skip stack (later ++ found.refs) (later ++ walked.refs) := by
  induction steps generalizing stack found with
  | zero =>
    obtain rfl : found = walked := Except.ok.inj hwalk
    -- No step is left, so as much was found as there is.
    have hall : ∀ y ∈ stack, y ∈ found.refs := fun y hy =>
      hfound.mem_of_length_le hw.mem (by omega) (hstack y hy)
    refine .stop (List.dropWhile_eq_nil_iff.mpr fun y hy => ?_)
    rw [Found.has_iff.mpr (hall y hy), Bool.or_true]
  | succ steps ih =>
    cases hdrop : stack.dropWhile fun y => (skip y || later.contains y) || found.has y with
    | nil =>
      rw [walk_of_dropWhile_eq_nil hdrop] at hwalk
      obtain rfl : found = walked := Except.ok.inj hwalk
      exact .stop hdrop
    | cons ref rest =>
      obtain ⟨hnew, hrest⟩ := mem_of_dropWhile hdrop
      have href := hstack ref (hrest ref List.mem_cons_self)
      rw [walk_of_dropWhile_eq_cons hdrop] at hwalk
      obtain ⟨t, ht, hwalk⟩ := bind_eq_ok_iff.mp hwalk
      have hlength : bound.length ≤ steps + (found ++ [(ref, t)]).length := by
        rw [List.length_append, List.length_singleton]
        omega
      have hrefs := hw.closed ref t href ht
      exact .step hdrop ht (ih (hfound.concat hnew href ht) (List.forall_mem_append.mpr
        ⟨hrefs, fun y hy => hstack y (hrest y (List.mem_cons_of_mem _ hy))⟩) hlength hwalk)

theorem collectsListed_of_walkListed (hfound : found.Valid define P) (hlisted : ∀ y ∈ listed, P y)
    (hsteps : bound.length ≤ steps) (hwalk : walkListed define skip steps listed found = .ok walked) :
    CollectsListed define skip listed (listed ++ found.refs) walked.refs := by
  induction listed generalizing found with
  | nil =>
    cases hwalk
    exact .nil
  | cons ref later ih =>
    obtain ⟨href, hlater⟩ := List.forall_mem_cons.mp hlisted
    obtain ⟨first, hfirst, hwalk⟩ := bind_eq_ok_iff.mp hwalk
    have href := List.forall_mem_singleton.mpr href
    have hvalid := hfound.of_walk hw.closed href hfirst
    refine .cons ?_ (ih hvalid hlater hwalk)
    rw [List.cons_append, List.erase_cons_head]
    exact collects_of_walk hw hfound href (le_trans hsteps (Nat.le_add_right _ _)) hfirst

/-- A walk over listed references and roots collects them. -/
theorem collected_of_types (hlisted : ∀ y ∈ listed, P y) (hroots : ∀ y ∈ roots, P y)
    (hsteps : bound.length ≤ steps) (htypes : types define skip steps listed roots = .ok walked) :
    Collected define skip listed roots walked.refs := by
  obtain ⟨own, hown, hwalk⟩ := bind_eq_ok_iff.mp htypes
  have hlistedOwn := collectsListed_of_walkListed hw .nil hlisted hsteps hown
  rw [Found.refs, List.map_nil, List.append_nil] at hlistedOwn
  refine ⟨own.refs, hlistedOwn, ?_⟩
  have hnone : (fun y => skip y || ([] : List ρ).contains y) = skip := funext fun y => Bool.or_false _
  have hvalid : own.Valid define P := Found.Valid.nil.of_walkListed hw.closed hlisted hown
  rw [← hnone] at hwalk
  exact collects_of_walk hw hvalid hroots (le_trans hsteps (Nat.le_add_right _ _)) hwalk

end Walks

end OpenCrud.Schema.Reach
