import Mathlib.Data.List.TakeWhile
import OpenCrud.Decimal.Shortest

/-!
# What the text of a double is made of

The text of a double is that of a zero, that of digits with a point among them, or a name (`render_cases`).
The digits of a double that is no zero are not all zeros, so its text tells it from the zeros.
-/

namespace OpenCrud.Double

/-! ## Digits -/

theorem exists_ne_zero_of_ofDigitChars {cs : List Char} {init : Nat}
    (h : Nat.ofDigitChars 10 cs init ≠ 0) : init ≠ 0 ∨ ∃ c ∈ cs, c ≠ '0' := by
  induction cs generalizing init with
  | nil => exact Or.inl h
  | cons c cs ih =>
    rcases ih h with hinit | ⟨d, hd, hne⟩
    · by_cases hc : c = '0'
      · left
        subst hc
        dsimp only at hinit
        omega
      · exact Or.inr ⟨c, List.mem_cons_self, hc⟩
    · exact Or.inr ⟨d, List.mem_cons_of_mem _ hd, hne⟩

/-- A positive number has a digit other than zero. -/
theorem exists_ne_zero_toDigits {n : Nat} (hn : n ≠ 0) : ∃ c ∈ Nat.toDigits 10 n, c ≠ '0' := by
  rw [← Nat.ofDigitChars_ten_toDigits (n := n)] at hn
  exact (exists_ne_zero_of_ofDigitChars hn).resolve_left (fun h => h rfl)

theorem isDigit_of_mem_toDigits {n : Nat} {c : Char} (hc : c ∈ Nat.toDigits 10 n) : c.isDigit = true :=
  Nat.isDigit_of_mem_toDigits (by decide) (by decide) hc

/-! ## Decimals that read back -/

namespace Rounding

variable {r : Rounding} (hlow : 0 < r.low)

include hlow

/-- Zero does not round to a double if all the reals that do are positive. -/
theorem contains_zero {den : Nat} (hden : 0 < den) : r.contains 0 den = false := by
  have hpos : 0 < r.low * den := Nat.mul_pos hlow hden
  unfold contains
  split
  · rw [Nat.zero_mul, decide_eq_false (Nat.not_le_of_lt hpos), Bool.false_and]
  · rw [Nat.zero_mul, decide_eq_false (Nat.not_lt_zero _), Bool.false_and]

theorem onGrid?_ne_zero {count decimal : Nat} (h : r.onGrid? count = some decimal) : decimal ≠ 0 := by
  rintro rfl
  have hden : 0 < Nat.pow 10 (count - r.point).toNat := Nat.pow_pos (by decide)
  have hzero := contains_zero hlow hden
  unfold onGrid? at h
  dsimp only at h
  split at h
  · rename_i hbelow _
    split at h
    · rw [Option.some.inj h, Nat.zero_mul, hzero] at hbelow
      cases hbelow
    · cases h
  · rename_i hbelow _
    rw [Option.some.inj h, Nat.zero_mul, hzero] at hbelow
    cases hbelow
  · cases h
  · cases h

/-- The digits of a shortest decimal are digits, and one of them is not zero. -/
theorem shortest?_digits {digits : List Char} {point : Int}
    (h : r.shortest? = some (digits, point)) :
    (∃ c ∈ digits, c ≠ '0') ∧ ∀ c ∈ digits, c.isDigit = true := by
  obtain ⟨count, _, hcount⟩ := List.exists_of_findSome?_eq_some h
  obtain ⟨decimal, hdecimal, hpair⟩ := Option.map_eq_some_iff.mp hcount
  obtain ⟨rfl, _⟩ := Prod.mk.inj hpair
  constructor
  · obtain ⟨c, hc, hne⟩ := exists_ne_zero_toDigits (onGrid?_ne_zero hlow hdecimal)
    refine ⟨c, ?_, hne⟩
    -- Only zeros are taken off at the end.
    have hsplit : c ∈ (Nat.toDigits 10 decimal).reverse.takeWhile (· = '0') ++
        (Nat.toDigits 10 decimal).reverse.dropWhile (· = '0') := by
      rw [List.takeWhile_append_dropWhile]
      exact List.mem_reverse.mpr hc
    rcases List.mem_append.mp hsplit with hzero | hkept
    · have heq := List.mem_takeWhile_imp hzero
      exact absurd (of_decide_eq_true heq) hne
    · exact List.mem_reverse.mpr hkept
  · intro c hc
    have hmem := (List.dropWhile_sublist _).subset (List.mem_reverse.mp hc)
    exact isDigit_of_mem_toDigits (List.mem_reverse.mp hmem)

end Rounding

theorem low_rounding_pos {mantissa : Nat} (hmantissa : mantissa ≠ 0) (exponent : Int) :
    0 < (rounding mantissa exponent).low := by
  refine Nat.mul_pos ?_ (Nat.pow_pos (by decide))
  split <;> omega

/-! ## Text -/

/-- The characters of numbers. -/
def isNumberChar (c : Char) : Bool := c.isDigit || ['-', '+', '.', 'e'].contains c

theorem isNumberChar_of_isDigit {c : Char} (h : c.isDigit = true) : isNumberChar c = true := by
  rw [isNumberChar, h, Bool.true_or]

theorem mem_take_one_or_tail {c : Char} {digits : List Char} (hc : c ∈ digits) :
    c ∈ digits.take 1 ∨ c ∈ digits.tail := by
  rw [← List.take_append_drop 1 digits, List.mem_append, List.drop_one] at hc
  exact hc

theorem mem_renderDigits {digits : List Char} {point : Int} {c : Char} (hc : c ∈ digits) :
    c ∈ (renderDigits digits point).toList := by
  unfold renderDigits
  dsimp only
  split
  · rw [String.toList_ofList]
    refine List.mem_append_left _ (List.mem_append_left _ (List.mem_append.mpr ?_))
    rcases mem_take_one_or_tail hc with hhead | htail
    · exact Or.inl hhead
    · right
      split
      · rename_i hnil
        rw [hnil] at htail
        cases htail
      · exact List.mem_cons_of_mem _ htail
  · split
    · rw [String.toList_ofList]
      exact List.mem_append_right _ hc
    · rw [String.toList_ofList]
      rw [← List.take_append_drop point.toNat digits, List.mem_append] at hc
      rcases hc with hwhole | hfraction
      · exact List.mem_append_left _ (List.mem_append_left _ hwhole)
      · refine List.mem_append_right _ (List.mem_cons_of_mem _ ?_)
        split
        · rename_i hnil
          rw [hnil] at hfraction
          cases hfraction
        · exact hfraction

/-- Every character of a decimal's text is one of numbers. -/
theorem isNumberChar_of_mem_renderDigits {digits : List Char}
    (hdigits : ∀ c ∈ digits, c.isDigit = true) {point : Int} :
    ∀ c ∈ (renderDigits digits point).toList, isNumberChar c = true := by
  have hnumber : ∀ c ∈ digits, isNumberChar c = true := fun c hc =>
    isNumberChar_of_isDigit (hdigits c hc)
  have htail : ∀ c ∈ digits.tail, isNumberChar c = true := fun c hc =>
    hnumber c (List.mem_of_mem_tail hc)
  have hzeros : ∀ n : Nat, ∀ c ∈ List.replicate n '0', isNumberChar c = true := by
    intro n c hc
    rw [List.eq_of_mem_replicate hc]
    rfl
  unfold renderDigits
  dsimp only
  split
  · rw [String.toList_ofList]
    have hsize : ∀ c ∈ Nat.toDigits 10 (point - 1).natAbs, isNumberChar c = true := fun c hc =>
      isNumberChar_of_isDigit (isDigit_of_mem_toDigits hc)
    refine List.forall_mem_append.mpr ⟨List.forall_mem_append.mpr ⟨?_, ?_⟩, hsize⟩
    · refine List.forall_mem_append.mpr ⟨fun c hc => hnumber c (List.mem_of_mem_take hc), ?_⟩
      split
      · exact fun _ hc => nomatch hc
      · exact List.forall_mem_cons.mpr ⟨rfl, htail⟩
    · refine List.forall_mem_cons.mpr ⟨rfl, List.forall_mem_cons.mpr ⟨?_, hzeros _⟩⟩
      split <;> rfl
  · split
    · rw [String.toList_ofList]
      refine List.forall_mem_append.mpr ⟨?_, hnumber⟩
      exact List.forall_mem_cons.mpr ⟨rfl, List.forall_mem_cons.mpr ⟨rfl, hzeros _⟩⟩
    · rw [String.toList_ofList]
      refine List.forall_mem_append.mpr ⟨List.forall_mem_append.mpr ⟨?_, hzeros _⟩, ?_⟩
      · exact fun c hc => hnumber c (List.mem_of_mem_take hc)
      · refine List.forall_mem_cons.mpr ⟨rfl, ?_⟩
        split
        · exact List.forall_mem_cons.mpr ⟨rfl, nofun⟩
        · exact fun c hc => hnumber c (List.mem_of_mem_drop hc)

/-- The text of a sign. -/
def signText (negative : Bool) : String := if negative then "-" else ""

/-- The ways in which a double is written. -/
inductive Written (special : SpecialNames) (d : Double) : Prop where
  | zero (negative : Bool) (hzero : d.isZero = true)
    (htext : d.render special = signText negative ++ "0.0")
  | decimal (negative : Bool) (hzero : d.isZero = false) {digits : List Char} (point : Int)
    (hne : ∃ c ∈ digits, c ≠ '0') (hdigits : ∀ c ∈ digits, c.isDigit = true)
    (htext : d.render special = signText negative ++ renderDigits digits point)
  | special (negative : Bool) (hzero : d.isZero = false) {name : String}
    (hname : name = special.infinity ∨ name = special.notANumber)
    (htext : d.render special = signText negative ++ name)

theorem render_cases (special : SpecialNames) (d : Double) : d.Written special := by
  cases hparts : d.parts with
  | notANumber =>
    refine .special false ?_ (Or.inr rfl) ?_
    · rw [isZero, hparts]
    · rw [render, hparts]
      exact (String.empty_append).symm
  | infinite negative =>
    refine .special negative ?_ (Or.inl rfl) ?_
    · rw [isZero, hparts]
    · rw [render, hparts]
      rfl
  | finite negative mantissa exponent =>
    cases mantissa with
    | zero =>
      refine .zero negative ?_ ?_
      · rw [isZero, hparts]
        rfl
      · rw [render, hparts]
        rfl
    | succ mantissa =>
      have hzero : d.isZero = false := by
        rw [isZero, hparts]
        rfl
      cases hshort : (rounding (mantissa + 1) exponent).shortest? with
      | none =>
        refine .special negative hzero (Or.inr rfl) ?_
        simp only [render, hparts, hshort]
        rfl
      | some result =>
        obtain ⟨digits, point⟩ := result
        have hlow := low_rounding_pos (Nat.succ_ne_zero mantissa) exponent
        obtain ⟨hne, hdigits⟩ := Rounding.shortest?_digits hlow hshort
        refine .decimal negative hzero point hne hdigits ?_
        simp only [render, hparts, hshort]
        rfl

end OpenCrud.Double
