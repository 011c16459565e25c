import Mathlib.Data.List.Forall2

/-!
# Computations that can fail

When a computation in `Except` succeeds: the equations by which `do` blocks are opened. A list that is made item
by item is known item by item (`mapM_eq_ok_iff_forall₂`). Where it is enough to know something about all results,
failures do not count (`Gives`).
-/

namespace OpenCrud

variable {ε α β : Type}

theorem bind_eq_ok_iff {x : Except ε α} {f : α → Except ε β} {b : β} :
    x >>= f = .ok b ↔ ∃ a, x = .ok a ∧ f a = .ok b := by
  cases x with
  | ok a => simp [bind, Except.bind]
  | error e => simp [bind, Except.bind]

theorem ok_bind {a : α} {f : α → Except ε β} : (Except.ok a >>= f) = f a := rfl

theorem error_bind {e : ε} {f : α → Except ε β} : (Except.error e >>= f) = .error e := rfl

theorem throw_bind {e : ε} {f : α → Except ε β} : (throw e >>= f) = .error e := rfl

theorem ite_error_eq_ok_iff {c : Prop} [Decidable c] {e : ε} {x : Except ε α} {a : α} :
    (if c then .error e else x) = .ok a ↔ ¬c ∧ x = .ok a := by
  split <;> simp [*]

theorem exists_eq_ok {x : Except ε α} (h : x.isOk = true) : ∃ a, x = .ok a := by
  cases x with
  | ok a => exact ⟨a, rfl⟩
  | error e => cases h

theorem exists_ok_of_any {x : Except ε α} {p : α → Bool} (h : x.toOption.any p = true) :
    ∃ a, x = .ok a ∧ p a = true := by
  cases x with
  | ok a => exact ⟨a, rfl, h⟩
  | error e => cases h

/-- A check of a list succeeds when the check of every item does. -/
theorem forM_eq_ok_iff {f : α → Except ε Unit} {l : List α} :
    l.forM f = .ok () ↔ ∀ a ∈ l, f a = .ok () := by
  induction l with
  | nil => simp [List.forM, pure, Except.pure]
  | cons a l ih =>
    rw [List.forM, bind_eq_ok_iff, List.forall_mem_cons]
    constructor
    · rintro ⟨_, ha, hl⟩
      exact ⟨ha, ih.mp hl⟩
    · rintro ⟨ha, hl⟩
      exact ⟨(), ha, ih.mpr hl⟩

/-! ## Lists made item by item -/

theorem exists_of_forall₂ {R : α → β → Prop} {as : List α} {bs : List β} (h : List.Forall₂ R as bs)
    {b : β} (hb : b ∈ bs) : ∃ a ∈ as, R a b := by
  induction h with
  | nil => cases hb
  | cons hab _ ih =>
    rcases List.mem_cons.mp hb with rfl | hb
    · exact ⟨_, List.mem_cons_self, hab⟩
    · obtain ⟨a, ha, hR⟩ := ih hb
      exact ⟨a, List.mem_cons_of_mem _ ha, hR⟩

/-- What is kept of every item is kept of the list. -/
theorem map_eq_map_of_forall₂ {γ : Type} {k : β → γ} {k' : α → γ} {as : List α} {bs : List β}
    (h : List.Forall₂ (fun a b => k b = k' a) as bs) : bs.map k = as.map k' := by
  rw [← List.forall₂_eq_eq_eq, List.forall₂_map_left_iff, List.forall₂_map_right_iff]
  exact h.flip

/-- A list is made item by item where each item of the result is made of the item in its place. -/
theorem mapM_eq_ok_iff_forall₂ {f : α → Except ε β} {l : List α} {bs : List β} :
    l.mapM f = .ok bs ↔ List.Forall₂ (fun a b => f a = .ok b) l bs := by
  induction l generalizing bs with
  | nil =>
    rw [List.forall₂_nil_left_iff]
    constructor
    · rintro ⟨⟩
      rfl
    · rintro rfl
      rfl
  | cons a l ih =>
    simp only [List.mapM_cons, bind_eq_ok_iff, ih, List.forall₂_cons_left_iff]
    constructor
    · rintro ⟨b, hb, rest, hrest, ⟨⟩⟩
      exact ⟨b, rest, hb, hrest, rfl⟩
    · rintro ⟨b, rest, hb, hrest, rfl⟩
      exact ⟨b, hb, rest, hrest, rfl⟩

theorem exists_of_mapM_eq_ok {f : α → Except ε β} {l : List α} {bs : List β}
    (h : l.mapM f = .ok bs) {a : α} (ha : a ∈ l) : ∃ b, f a = .ok b := by
  obtain ⟨b, _, hb⟩ := exists_of_forall₂ (mapM_eq_ok_iff_forall₂.mp h).flip ha
  exact ⟨b, hb⟩

theorem length_of_mapM_eq_ok {f : α → Except ε β} {l : List α} {bs : List β}
    (h : l.mapM f = .ok bs) : bs.length = l.length := (mapM_eq_ok_iff_forall₂.mp h).length_eq.symm

theorem map_of_mapM_eq_ok {γ : Type} {f : α → Except ε β} {k : β → γ} {k' : α → γ} {l : List α}
    {bs : List β} (h : l.mapM f = .ok bs) (hkept : ∀ a ∈ l, ∀ b, f a = .ok b → k b = k' a) :
    bs.map k = l.map k' := by
  have hmem : List.Forall₂ (fun a b => a ∈ l ∧ f a = .ok b) l bs :=
    (List.forall₂_and_left _ _).mpr ⟨fun _ ha => ha, mapM_eq_ok_iff_forall₂.mp h⟩
  exact map_eq_map_of_forall₂ (hmem.imp fun a b ⟨ha, hb⟩ => hkept a ha b hb)

/-- What is made of the items of a list is related to what else is made of them where it is for each item. -/
theorem exists_mapM_of_forall {γ : Type} {R : β → γ → Prop} {f : α → Except ε β} {g : α → Except ε γ}
    (h : ∀ a b, f a = .ok b → ∃ c, g a = .ok c ∧ R b c) {as : List α} {bs : List β}
    (hbs : as.mapM f = .ok bs) : ∃ cs, as.mapM g = .ok cs ∧ List.Forall₂ R bs cs := by
  simp only [mapM_eq_ok_iff_forall₂] at hbs ⊢
  induction hbs with
  | nil => exact ⟨[], .nil, .nil⟩
  | @cons a b as bs hab _ ih =>
    obtain ⟨c, hc, hbc⟩ := h a b hab
    obtain ⟨cs, hcs, hrest⟩ := ih
    exact ⟨c :: cs, .cons hc hcs, .cons hbc hrest⟩

/-- Something holds of all that is made of a list where it holds of what is made of every item. -/
theorem forall_mem_iff_of_mapM_eq_ok {P : β → Prop} {Q : α → Prop} {f : α → Except ε β} {l : List α}
    {bs : List β} (h : l.mapM f = .ok bs) (hitem : ∀ a ∈ l, ∀ b, f a = .ok b → (P b ↔ Q a)) :
    (∀ b ∈ bs, P b) ↔ ∀ a ∈ l, Q a := by
  have hmap : bs.map P = l.map Q := map_of_mapM_eq_ok h fun a ha b hb => propext (hitem a ha b hb)
  have hall : (∀ p ∈ bs.map P, p) ↔ ∀ p ∈ l.map Q, p := by rw [hmap]
  simpa only [List.forall_mem_map] using hall

/-- What succeeds for every item of a list succeeds for the list. -/
theorem mapM_eq_ok {f : α → Except ε β} {f' : α → β} {l : List α}
    (h : ∀ a ∈ l, f a = .ok (f' a)) : l.mapM f = .ok (l.map f') := by
  induction l with
  | nil => rfl
  | cons a l ih =>
    rw [List.mapM_cons, h a List.mem_cons_self, ih fun b hb => h b (List.mem_cons_of_mem _ hb)]
    rfl

/-- What succeeds for every item with a property, and for no other one, succeeds for the lists of such items. -/
theorem mapM_eq_ok_iff {p : α → Prop} {f : α → Except ε β} {f' : α → β} {l : List α} {bs : List β}
    (h : ∀ a ∈ l, ∀ b, f a = .ok b ↔ p a ∧ b = f' a) :
    l.mapM f = .ok bs ↔ (∀ a ∈ l, p a) ∧ bs = l.map f' := by
  constructor
  · intro hbs
    have hitem : ∀ a ∈ l, p a := by
      intro a ha
      obtain ⟨b, hb⟩ := exists_of_mapM_eq_ok hbs ha
      exact ((h a ha b).mp hb).1
    refine ⟨hitem, ?_⟩
    rw [mapM_eq_ok fun a ha => (h a ha (f' a)).mpr ⟨hitem a ha, rfl⟩] at hbs
    exact (Except.ok.inj hbs).symm
  · rintro ⟨hitem, rfl⟩
    exact mapM_eq_ok fun a ha => (h a ha (f' a)).mpr ⟨hitem a ha, rfl⟩

theorem mapM_congr {f f' : α → Except ε β} {l : List α} (h : ∀ a ∈ l, f a = f' a) :
    l.mapM f = l.mapM f' := by
  induction l with
  | nil => rfl
  | cons a l ih =>
    rw [List.mapM_cons, List.mapM_cons, h a List.mem_cons_self, ih fun b hb => h b (List.mem_cons_of_mem _ hb)]

/-! ## Results -/

/-- A computation gives no result without a property. It may fail. -/
def Gives (P : α → Prop) (x : Except ε α) : Prop := ∀ a, x = .ok a → P a

section Gives

variable {P : α → Prop} {Q : β → Prop} {x : Except ε α}

theorem gives_ok {a : α} (h : P a) : Gives P (.ok a : Except ε α) := by
  rintro _ ⟨⟩
  exact h

theorem Gives.bind {f : α → Except ε β} (hx : Gives P x) (hf : ∀ a, P a → Gives Q (f a)) :
    Gives Q (x >>= f) := by
  intro b hb
  obtain ⟨a, ha, hb⟩ := bind_eq_ok_iff.mp hb
  exact hf a (hx a ha) b hb

/-- Where a computation goes on in the same way with every result, the result does not matter. -/
theorem gives_bind {f : α → Except ε β} (hf : ∀ a, Gives Q (f a)) : Gives Q (x >>= f) := by
  intro b hb
  obtain ⟨a, _, hb⟩ := bind_eq_ok_iff.mp hb
  exact hf a b hb

theorem Gives.mapM {f : α → Except ε β} {l : List α} (h : ∀ a ∈ l, Gives Q (f a)) :
    Gives (fun bs => ∀ b ∈ bs, Q b) (l.mapM f) := fun _ hbs =>
  (forall_mem_iff_of_mapM_eq_ok hbs fun a ha b hb => iff_true_intro (h a ha b hb)).mpr fun _ _ => trivial

end Gives

end OpenCrud
