import Mathlib.Data.List.Perm.Subperm
import OpenCrud.Proofs.FieldMap
import OpenCrud.Sdl.Document

/-!
# Sameness of values

Whether two values are the same is asked from one of them: every entry of the one object is looked up in the other.
The answer is the same from the other side where objects have no key twice (`Keyed`), as the objects that
literals stand for (`Literal.keyed_toValue`). Main result: `same_comm`.
-/

namespace OpenCrud

theorem Double.same_comm (a b : Double) : a.same b = b.same a := by
  unfold Double.same
  rcases a.parts with ⟨_, _ | _, _⟩ | _ | _ <;> rcases b.parts with ⟨_, _ | _, _⟩ | _ | _ <;> simp [eq_comm]

namespace Value

/-! ## Values without repeated keys -/

mutual

/-- No object in a value has a key twice. -/
def Keyed : Value → Prop
  | .list items => KeyedItems items
  | .object entries => (entries.map Prod.fst).Nodup ∧ KeyedEntries entries
  | _ => True

/-- No object in the items of a list has a key twice. -/
def KeyedItems : List Value → Prop
  | [] => True
  | x :: xs => Keyed x ∧ KeyedItems xs

/-- No object in the values of some entries has a key twice. -/
def KeyedEntries : List (String × Value) → Prop
  | [] => True
  | (_, x) :: xs => Keyed x ∧ KeyedEntries xs

end

theorem keyedEntries_iff {entries : List (String × Value)} :
    KeyedEntries entries ↔ ∀ entry ∈ entries, Keyed entry.2 := by
  induction entries with
  | nil => simp [KeyedEntries]
  | cons entry entries ih => rw [KeyedEntries, ih, List.forall_mem_cons]

/-! ## Values without parts -/

theorem sameAtom_comm (a b : Value) : sameAtom a b = sameAtom b a := by
  cases a <;> cases b <;> simp [sameAtom, integer?, eq_comm, Double.same_comm]

/-! ## Parts of values -/

/-- Whether two parts of values are the same: as values, or as floats that are no numbers. -/
def samePart (x y : Value) : Bool := (x.isNaN && y.isNaN) || same x y

theorem samePart_comm {x y : Value} (h : same x y = same y x) : samePart x y = samePart y x := by
  rw [samePart, samePart, h, Bool.and_comm]

/-- Entries are found among others where each of them stands there with the same value. -/
theorem sameEntries_iff {xs ys : List (String × Value)} (hnodup : (ys.map Prod.fst).Nodup) :
    sameEntries xs ys = true ↔ ∀ x ∈ xs, ∃ y ∈ ys, y.1 = x.1 ∧ samePart x.2 y.2 = true := by
  induction xs with
  | nil => simp [sameEntries]
  | cons x xs ih =>
    rw [sameEntries, Bool.and_eq_true, ih, List.forall_mem_cons]
    refine and_congr_left fun _ => ?_
    constructor
    · intro h
      split at h
      · rename_i y hy
        exact ⟨_, (FieldMap.lookup_eq_some_iff hnodup).mp hy, rfl, h⟩
      · cases h
    · rintro ⟨⟨key, y⟩, hy, rfl, h⟩
      rw [(FieldMap.lookup_eq_some_iff hnodup).mpr hy]
      exact h

/-- Between equally many entries without repeated keys no entry of the others is left over. -/
theorem sameEntries_symm {xs ys : List (String × Value)} (hx : (xs.map Prod.fst).Nodup)
    (hy : (ys.map Prod.fst).Nodup) (hlength : xs.length = ys.length)
    (hcomm : ∀ x ∈ xs, ∀ y ∈ ys, samePart x.2 y.2 = samePart y.2 x.2) (h : sameEntries xs ys = true) :
    sameEntries ys xs = true := by
  rw [sameEntries_iff hy] at h
  have hsubset : xs.map Prod.fst ⊆ ys.map Prod.fst := by
    intro key hkey
    obtain ⟨x, hxmem, rfl⟩ := List.mem_map.mp hkey
    obtain ⟨y, hymem, hkeys, _⟩ := h x hxmem
    exact hkeys ▸ List.mem_map_of_mem hymem
  have hperm : (xs.map Prod.fst).Perm (ys.map Prod.fst) :=
    (hx.subperm hsubset).perm_of_length_le (by simp [hlength])
  refine (sameEntries_iff hx).mpr fun y hymem => ?_
  obtain ⟨x, hxmem, hkey⟩ := List.mem_map.mp (hperm.mem_iff.mpr (List.mem_map_of_mem hymem))
  obtain ⟨y', hymem', hkey', hsame⟩ := h x hxmem
  obtain rfl : y' = y := List.inj_on_of_nodup_map hy hymem' hymem (hkey'.trans hkey)
  exact ⟨x, hxmem, hkey, (hcomm x hxmem y' hymem).symm.trans hsame⟩

/-! ## Main result -/

/-- Values without repeated keys are the same from either side. -/
theorem same_comm (a b : Value) (ha : a.Keyed) (hb : b.Keyed) : same a b = same b a := by
  revert a b
  -- An entry of an object is compared with the entry of its key, wherever that stands.
  apply same.induct (fun a b => a.Keyed → b.Keyed → same a b = same b a)
    (fun xs _ => KeyedEntries xs → ∀ x ∈ xs, ∀ y, y.Keyed → same x.2 y = same y x.2)
    (fun xs ys => KeyedItems xs → KeyedItems ys → sameItems xs ys = sameItems ys xs)
  case case1 =>
    intro xs ys ih ha hb
    rw [same, same]
    exact ih ha hb
  case case2 =>
    intro xs ys ih ha hb
    have hcomm : ∀ x ∈ xs, ∀ y ∈ ys, samePart x.2 y.2 = samePart y.2 x.2 := fun x hx y hy =>
      samePart_comm (ih ha.2 x hx y.2 (keyedEntries_iff.mp hb.2 y hy))
    rw [same, same, Bool.eq_iff_iff, Bool.and_eq_true, Bool.and_eq_true, decide_eq_true_eq, decide_eq_true_eq]
    constructor
    · rintro ⟨hlength, h⟩
      exact ⟨hlength.symm, sameEntries_symm ha.1 hb.1 hlength hcomm h⟩
    · rintro ⟨hlength, h⟩
      exact ⟨hlength.symm, sameEntries_symm hb.1 ha.1 hlength (fun y hy x hx => (hcomm x hx y hy).symm) h⟩
  case case3 =>
    intro x y hlist hobject _ _
    rw [same.eq_3 x y hlist hobject, same.eq_3 y x (fun _ _ hy hx => hlist _ _ hx hy)
      (fun _ _ hy hx => hobject _ _ hx hy), sameAtom_comm]
  case case4 =>
    intros
    rfl
  case case5 =>
    intro x xs y ys ihhead ihtail hx hy
    have hpart : samePart x y = samePart y x := samePart_comm (ihhead hx.1 hy.1)
    rw [sameItems, sameItems, ihtail hx.2 hy.2]
    exact congrArg (· && sameItems ys xs) hpart
  case case6 =>
    intro xs ys hnil hcons _ _
    rw [sameItems.eq_3 xs ys hnil hcons,
      sameItems.eq_3 ys xs (fun hy hx => hnil hx hy) (fun _ _ _ _ hy hx => hcons _ _ _ _ hx hy)]
  case case7 =>
    intro _ _ x hx
    cases hx
  case case8 =>
    intro key x xs ys ihhead ihtail h entry hentry y hy
    rcases List.mem_cons.mp hentry with rfl | hentry
    · exact ihhead y h.1 hy
    · exact ihtail h.2 entry hentry y hy

theorem sameOption_comm {a b : Option Value} (ha : ∀ v, a = some v → v.Keyed)
    (hb : ∀ v, b = some v → v.Keyed) : sameOption a b = sameOption b a := by
  cases a with
  | none => cases b <;> rfl
  | some x =>
    cases b with
    | none => rfl
    | some y => exact same_comm x y (ha x rfl) (hb y rfl)

end Value

/-! ## Values of literals -/

namespace Sdl.Literal

open Value

/-- The value of a literal has no key twice, even where the literal repeats one. -/
theorem keyed_toValue (l : Literal) : l.toValue.Keyed := by
  revert l
  apply toValue.induct (fun l => l.toValue.Keyed) (fun entries => KeyedEntries (toEntries entries))
    (fun items => KeyedItems (toValues items))
  case case4 =>
    intro text
    unfold toValue intValue
    split
    split
    · trivial
    · trivial
  case case9 => exact fun items ih => ih
  case case10 =>
    intro entries ih
    refine ⟨FieldMap.nodup_keys_ofEntries, keyedEntries_iff.mpr fun entry hentry => ?_⟩
    exact keyedEntries_iff.mp ih entry (FieldMap.mem_of_mem_ofEntries hentry)
  case case12 => exact fun x xs ihhead ihtail => ⟨ihhead, ihtail⟩
  case case14 => exact fun key x xs ihhead ihtail => ⟨ihhead, ihtail⟩
  all_goals intros; trivial

end Sdl.Literal

theorem Value.eq_of_present? {a b : Value} (h : a.present? = some b) : a = b := by
  cases a with
  | null => cases h
  | _ => exact Option.some.inj h

theorem Sdl.Directive.keyed_argument {d : Directive} {name : String} {v : Value}
    (h : d.argument? name = some v) : v.Keyed := by
  obtain ⟨argument, _, hpresent⟩ := Option.bind_eq_some_iff.mp h
  exact Value.eq_of_present? hpresent ▸ argument.value.keyed_toValue

end OpenCrud
