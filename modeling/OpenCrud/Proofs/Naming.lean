import Mathlib.Data.Char
import Mathlib.Data.List.Infix
import OpenCrud.Proofs.CamelCase
import OpenCrud.Sdl.Name

/-!
# Plurals of names

What the plural of a name is made of: the name itself or a beginning of it, and a plural ending
(`pluralizeChars_cases`). So the plural of a name is a name, and it differs from the name in more than letter
case. Names are ASCII, so their letter case maps one letter to one letter.
-/

namespace OpenCrud.Naming

open OpenCrud.Text

/-! ## Letter case of names -/

theorem isNameContinue_of_isNameStart {c : Char} (h : isNameStart c = true) :
    isNameContinue c = true := by
  simp only [isNameStart, isNameContinue, Char.isAlphanum, Bool.or_eq_true] at h ⊢
  exact h.imp_left Or.inl

theorem all_of_isName {w : List Char} (h : isName w = true) : w.all isNameContinue = true := by
  cases w with
  | nil => cases h
  | cons c cs =>
    simp only [isName, Bool.and_eq_true] at h
    rw [List.all_cons, isNameContinue_of_isNameStart h.1, h.2]
    rfl

theorem toNat_lt_of_isNameContinue {c : Char} (h : isNameContinue c = true) : c.toNat < 0x80 := by
  unfold isNameContinue Char.isAlphanum Char.isAlpha Char.isUpper Char.isLower Char.isDigit at h
  simp only [Bool.or_eq_true, Bool.and_eq_true, decide_eq_true_eq, ge_iff_le,
    UInt32.le_iff_toNat_le] at h
  rcases h with ((h | h) | h) | rfl
  · exact lt_of_le_of_lt h.2 (by decide +kernel)
  · exact lt_of_le_of_lt h.2 (by decide +kernel)
  · exact lt_of_le_of_lt h.2 (by decide +kernel)
  · decide

/-- What can be checked for every ASCII character holds of them. -/
theorem of_ascii {p : Char → Prop} [DecidablePred p]
    (h : ∀ n ∈ List.range 0x80, p (Char.ofNat n)) {c : Char} (hc : c.toNat < 0x80) : p c := by
  rw [← Char.ofNat_toNat c]
  exact h c.toNat (List.mem_range.mpr hc)

/-- A small letter can stand wherever its capital can. -/
theorem isNameStart_toLower {c : Char} (h : isNameStart c = true) : isNameStart c.toLower = true :=
  of_ascii (p := fun c => isNameStart c = true → isNameStart c.toLower = true) (by decide +kernel)
    (toNat_lt_of_isNameContinue (isNameContinue_of_isNameStart h)) h

theorem isNameContinue_toUpper {c : Char} (h : isNameContinue c = true) :
    isNameContinue c.toUpper = true :=
  of_ascii (p := fun c => isNameContinue c = true → isNameContinue c.toUpper = true) (by decide +kernel)
    (toNat_lt_of_isNameContinue h) h

theorem lowerChar_toLower {c : Char} (h : isNameContinue c = true) :
    lowerChar c.toLower = lowerChar c :=
  of_ascii (p := fun c => lowerChar c.toLower = lowerChar c) (by decide +kernel)
    (toNat_lt_of_isNameContinue h)

theorem lower_eq_map {w : List Char} (h : w.all isNameContinue = true) :
    lower w = w.map Char.toLower := by
  induction w with
  | nil => rfl
  | cons c cs ih =>
    rw [List.all_cons, Bool.and_eq_true] at h
    rw [lower, List.flatMap_cons, lowerChar_ascii (toNat_lt_of_isNameContinue h.1), ← lower, ih h.2]
    rfl

/-- Names have ASCII letters only, so their small letters are as many as their letters. -/
theorem length_lower {w : List Char} (h : w.all isNameContinue = true) :
    (lower w).length = w.length := by
  rw [lower_eq_map h, List.length_map]

theorem lower_append (v w : List Char) : lower (v ++ w) = lower v ++ lower w :=
  List.flatMap_append

/-! ## First letters -/

section FirstLetters

variable {w : List Char}

theorem lowerFirstChars_cons {c : Char} (h : isNameContinue c = true) :
    lowerFirstChars (c :: w) = c.toLower :: w := by
  rw [lowerFirstChars, lowerChar_ascii (toNat_lt_of_isNameContinue h)]
  rfl

theorem isName_lowerFirstChars (h : isName w = true) : isName (lowerFirstChars w) = true := by
  cases w with
  | nil => cases h
  | cons c cs =>
    simp only [isName, Bool.and_eq_true] at h
    rw [lowerFirstChars_cons (isNameContinue_of_isNameStart h.1), isName, isNameStart_toLower h.1, h.2]
    rfl

/-- But for the case of letters, nothing is changed by making the first one small. -/
theorem lower_lowerFirstChars (h : w.all isNameContinue = true) :
    lower (lowerFirstChars w) = lower w := by
  cases w with
  | nil => rfl
  | cons c cs =>
    rw [List.all_cons, Bool.and_eq_true] at h
    rw [lowerFirstChars_cons h.1, lower, List.flatMap_cons, lowerChar_toLower h.1, lower,
      List.flatMap_cons]

theorem upperFirstChars_cons {c : Char} (h : isNameContinue c = true) :
    upperFirstChars (c :: w) = c.toUpper :: w := by
  rw [upperFirstChars, upperChar_ascii (toNat_lt_of_isNameContinue h)]
  rfl

theorem all_upperFirstChars (h : w.all isNameContinue = true) :
    (upperFirstChars w).all isNameContinue = true := by
  cases w with
  | nil => rfl
  | cons c cs =>
    rw [List.all_cons, Bool.and_eq_true] at h
    rw [upperFirstChars_cons h.1, List.all_cons, isNameContinue_toUpper h.1, h.2]
    rfl

theorem length_upperFirstChars (h : w.all isNameContinue = true) :
    (upperFirstChars w).length = w.length := by
  cases w with
  | nil => rfl
  | cons c cs =>
    rw [List.all_cons, Bool.and_eq_true] at h
    rw [upperFirstChars_cons h.1]
    rfl

end FirstLetters

/-! ## Plurals of one word -/

/-- The endings that words get by the spelling rules. -/
def regularEndings : List (List Char) := ["s", "es", "ies", "ves"].map String.toList

/-- What a plural can end in: an ending by the spelling rules or a plural that follows none. -/
def pluralEndings : List (List Char) :=
  regularEndings ++ irregularPlurals.map fun p => p.2.toList

/-- A word by the spelling rules is a beginning of the word with an ending, and longer than the word. -/
theorem inflectRegular_eq {w lowered : List Char} (hlength : lowered.length = w.length) :
    ∃ stem ending, inflectRegular w lowered = stem ++ ending ∧ stem <+: w ∧
      ending ∈ regularEndings ∧ w.length < (stem ++ ending).length := by
  unfold inflectRegular
  split
  · exact ⟨w, _, rfl, List.prefix_rfl, by decide, by simp⟩
  split
  · exact ⟨w.dropLast, _, rfl, List.dropLast_prefix w, by decide, by simp; omega⟩
  split
  · rename_i hfe
    have hlen : 2 ≤ lowered.length := by
      have hsuffix : "fe".toList <:+ lowered := by simpa [endsInOneOf] using hfe
      exact hsuffix.length_le
    refine ⟨w.dropLast.dropLast, _, rfl, ?_, by decide, by simp; omega⟩
    exact (List.dropLast_prefix _).trans (List.dropLast_prefix w)
  split
  · exact ⟨w.dropLast, _, rfl, List.dropLast_prefix w, by decide, by simp; omega⟩
  · exact ⟨w, _, rfl, List.prefix_rfl, by decide, by simp⟩

/-- An irregular plural, with a capital or without one. -/
theorem irregular_plural {p : String × String} (hp : p ∈ irregularPlurals) {plural : List Char}
    (h : plural = p.2.toList ∨ plural = upperFirstChars p.2.toList) :
    isName plural = true ∧ lower plural = p.2.toList ∧ p.1.toList ≠ p.2.toList ∧
      p.1.toList.length ≤ plural.length + 1 := by
  have hall : ∀ p ∈ irregularPlurals,
      ∀ plural ∈ [p.2.toList, upperFirstChars p.2.toList],
        isName plural = true ∧ lower plural = p.2.toList ∧ p.1.toList ≠ p.2.toList ∧
          p.1.toList.length ≤ plural.length + 1 := by decide +kernel
  exact hall p hp plural (by simpa using h)

/-- A word with an irregular plural is one of the words of the table. -/
theorem mem_irregularPlurals_of_lookup {word plural : List Char}
    (h : (irregularPlurals.map fun p => (p.1.toList, p.2.toList)).lookup word = some plural) :
    ∃ p ∈ irregularPlurals, p.1.toList = word ∧ p.2.toList = plural := by
  obtain ⟨_, _, heq, _⟩ := List.lookup_eq_some_iff.mp h
  obtain ⟨p, hp, hpair⟩ := List.mem_map.mp (heq ▸ List.mem_append_right _ List.mem_cons_self)
  exact ⟨p, hp, congrArg Prod.fst hpair, congrArg Prod.snd hpair⟩

/-- The regular endings are names in small letters. -/
theorem regularEndings_isName : ∀ e ∈ regularEndings, isName e = true ∧ lower e = e := by
  decide +kernel

/--
That a word became its plural by a plural ending.

The plural differs from the word in more than letter case, and is at most one letter shorter.
-/
structure EndsAsPlural (w plural : List Char) : Prop where
  split : ∃ stem ending, plural = stem ++ ending ∧ stem <+: w ∧ isName ending = true ∧
    lower ending ∈ pluralEndings
  lower_ne : lower plural ≠ lower w
  length_le : w.length ≤ plural.length + 1

/-- An irregular plural counts as an ending of its own, behind an empty beginning. -/
theorem endsAsPlural_irregular {w plural : List Char} (h : w.all isNameContinue = true)
    {p : String × String} (hp : p ∈ irregularPlurals) (hkey : p.1.toList = lower w)
    (hplural : plural = p.2.toList ∨ plural = upperFirstChars p.2.toList) :
    EndsAsPlural w plural := by
  obtain ⟨hname, hlower, hne, hlength⟩ := irregular_plural hp hplural
  refine ⟨⟨[], plural, rfl, List.nil_prefix, hname, ?_⟩, ?_, ?_⟩
  · rw [hlower]
    exact List.mem_append_right _ (List.mem_map_of_mem hp)
  · rw [hlower, ← hkey]
    exact hne.symm
  · rw [hkey, length_lower h] at hlength
    exact hlength

theorem endsAsPlural_inflectRegular {w : List Char} (h : w.all isNameContinue = true) :
    EndsAsPlural w (inflectRegular w (lower w)) := by
  obtain ⟨stem, ending, heq, hstem, hending, hlength⟩ := inflectRegular_eq (length_lower h)
  obtain ⟨hname, hlower⟩ := regularEndings_isName ending hending
  have hall : (stem ++ ending).all isNameContinue = true := by
    rw [List.all_append, all_of_isName hname, Bool.and_true]
    exact List.all_eq_true.mpr fun c hc => List.all_eq_true.mp h c (hstem.subset hc)
  rw [heq]
  refine ⟨⟨stem, ending, rfl, hstem, hname, ?_⟩, fun hc => ?_, by omega⟩
  · rw [hlower]
    exact List.mem_append_left _ hending
  · -- The plural is longer than the word, and lower case keeps lengths.
    have hlen := congrArg List.length hc
    rw [length_lower hall, length_lower h] at hlen
    omega

/-- A word is its own plural, or its plural ends as plurals do. -/
theorem inflect_cases {w : List Char} (h : w.all isNameContinue = true) :
    inflect w = w ∨ EndsAsPlural w (inflect w) := by
  unfold inflect
  dsimp only
  split
  · exact Or.inl rfl
  refine Or.inr ?_
  split
  · rename_i plural hlookup
    obtain ⟨p, hp, hkey, rfl⟩ := mem_irregularPlurals_of_lookup hlookup
    refine endsAsPlural_irregular h hp hkey ?_
    split
    · exact Or.inr rfl
    · exact Or.inl rfl
  · exact endsAsPlural_inflectRegular h

/-! ## Plurals of names -/

/-- A word is inflected in its last segment. -/
theorem pluralizeChars_eq {w : List Char} (h : isName w = true) :
    ∃ start segment, start ++ segment = w ∧ pluralizeChars w = start ++ inflect segment := by
  have hne : w ≠ [] := by
    rintro rfl
    cases h
  cases hsplit : splitCamel? w with
  | none => exact ⟨[], w, rfl, pluralizeChars_of_none hne hsplit⟩
  | some parts =>
    obtain ⟨start, segment⟩ := parts
    have hsplits := splitCamel?_eq_some_iff.mp hsplit
    refine ⟨start, segment, ?_, ?_⟩
    · rcases hsplits.text_eq with htext | htext
      · exact htext.symm
      · -- No name has a line feed.
        have hmem : '\n' ∈ w := by simp [htext]
        exact absurd (List.all_eq_true.mp (all_of_isName h) _ hmem) (by decide)
    · rw [pluralizeChars_of_some hsplit, pluralizeChars_of_none hsplits.segment_ne_nil
        (splitCamel?_segment hsplits.isSegment_segment)]

/-- The plural of a name is the name itself, or ends as a plural. -/
theorem pluralizeChars_cases {w : List Char} (h : isName w = true) :
    pluralizeChars w = w ∨ EndsAsPlural w (pluralizeChars w) := by
  obtain ⟨start, segment, rfl, heq⟩ := pluralizeChars_eq h
  have hall := all_of_isName h
  rw [List.all_append, Bool.and_eq_true] at hall
  rw [heq]
  rcases inflect_cases hall.2 with hsame | hplural
  · exact Or.inl (by rw [hsame])
  · obtain ⟨stem, ending, hending, hstem, hrest⟩ := hplural.split
    refine Or.inr ⟨⟨start ++ stem, ending, ?_, ?_, hrest⟩, fun hc => ?_, ?_⟩
    · rw [hending, List.append_assoc]
    · exact (List.prefix_append_right_inj start).mpr hstem
    · rw [lower_append, lower_append] at hc
      exact hplural.lower_ne (List.append_cancel_left hc)
    · have hlength := hplural.length_le
      rw [List.length_append, List.length_append]
      omega

theorem isName_prefix_append {w p e : List Char} (hw : isName w = true) (hp : p <+: w)
    (he : isName e = true) : isName (p ++ e) = true := by
  cases p with
  | nil => exact he
  | cons c cs =>
    obtain ⟨rest, rfl⟩ := hp
    simp only [List.cons_append, isName, Bool.and_eq_true, List.all_append] at hw ⊢
    exact ⟨hw.1, hw.2.1, all_of_isName he⟩

theorem EndsAsPlural.isName {w plural : List Char} (h : EndsAsPlural w plural)
    (hw : isName w = true) : isName plural = true := by
  obtain ⟨stem, ending, rfl, hstem, hname, _⟩ := h.split
  exact isName_prefix_append hw hstem hname

section PluralName

variable {n : String} (h : isName n.toList = true)

include h

theorem pluralName_cases : pluralName n = "all" ++ n ∨ EndsAsPlural n.toList (pluralName n).toList := by
  have hplural : (pluralize n).toList = pluralizeChars n.toList := String.toList_ofList
  unfold pluralName
  dsimp only
  split
  · rename_i heq
    exact Or.inl (by rw [heq])
  · rename_i hne
    refine Or.inr ?_
    rw [hplural]
    rcases pluralizeChars_cases h with hsame | hends
    · exact absurd (String.toList_inj.mp (hplural.trans hsame)) hne
    · exact hends

/-- A plural is a name again. -/
theorem isName_pluralName : isName (pluralName n).toList = true := by
  rcases pluralName_cases h with hall | hends
  · rw [hall, String.toList_append]
    exact isName_prefix_append (w := "all".toList) (by decide) List.prefix_rfl h
  · exact hends.isName h

/-- A plural is at most one letter shorter than its word. -/
theorem length_le_pluralName : n.toList.length ≤ (pluralName n).toList.length + 1 := by
  rcases pluralName_cases h with hall | hends
  · rw [hall, String.toList_append, List.length_append]
    omega
  · exact hends.length_le

/-- The plural of a name differs from the name in more than letter case. -/
theorem lower_pluralName_ne : lower (pluralName n).toList ≠ lower n.toList := by
  rcases pluralName_cases h with hall | hends
  · intro hc
    have hlength := congrArg List.length hc
    rw [length_lower (all_of_isName (isName_pluralName h)), length_lower (all_of_isName h), hall,
      String.toList_append, List.length_append] at hlength
    have hpos : "all".toList.length = 3 := rfl
    omega
  · exact hends.lower_ne

/-- No plural is the word `node`, in whatever letter case. -/
theorem lower_pluralName_ne_node : lower (pluralName n).toList ≠ "node".toList := by
  intro hc
  rcases pluralName_cases h with hall | hends
  · rw [hall, String.toList_append, lower_append] at hc
    have hlower : lower "all".toList = "all".toList := by decide
    rw [hlower] at hc
    cases hc
  · obtain ⟨stem, ending, heq, _, _, hending⟩ := hends.split
    rw [heq, lower_append] at hc
    have hnode : ∀ e ∈ pluralEndings, ¬e <:+ "node".toList := by decide
    exact hnode _ hending (hc ▸ List.suffix_append _ _)

end PluralName

end OpenCrud.Naming
