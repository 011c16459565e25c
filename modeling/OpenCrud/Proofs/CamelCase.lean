import Mathlib.Data.List.Infix
import OpenCrud.Naming

/-!
# Segments of camel-case names

A text is split before its last segment in at most one way (`splitCamel?_eq_some_iff`), and a segment cannot be
split again. So the plural of a text is its first part as it is and the plural of its last segment.

The rule for plurals calls itself on the segment (`PluralizedAt`). It does so once where a text is split, and
never else (`pluralizedAt_iff`).
-/

namespace OpenCrud.Naming

/-! ## Segments -/

/-- Whether a text is a camel-case segment: an ASCII capital and one or more ASCII small letters. -/
def isSegment : List Char → Bool
  | [] => false
  | capital :: small => capital.isUpper && !small.isEmpty && small.all Char.isLower

theorem not_isLower_of_isUpper {c : Char} (h : c.isUpper = true) : c.isLower = false := by
  delta Char.isUpper at h
  delta Char.isLower
  simp only [decide_eq_true_eq, Bool.and_eq_false_iff, decide_eq_false_iff_not, ge_iff_le,
    UInt32.le_iff_toNat_le] at h ⊢
  exact Or.inl fun hc => absurd (Nat.le_trans hc h.2) (by decide)

theorem exists_of_isSegment {segment : List Char} (h : isSegment segment = true) :
    ∃ capital small, segment = capital :: small ∧ capital.isUpper = true ∧ small ≠ [] ∧
      ∀ c ∈ small, c.isLower = true := by
  cases segment with
  | nil => cases h
  | cons capital small =>
    simp only [isSegment, Bool.and_eq_true, Bool.not_eq_true', List.isEmpty_eq_false_iff, List.all_eq_true] at h
    exact ⟨capital, small, rfl, h.1.1, h.1.2, h.2⟩

/-- A segment ends in a small letter. -/
theorem exists_last_of_isSegment {segment : List Char} (h : isSegment segment = true) :
    ∃ front c, segment = front ++ [c] ∧ c.isLower = true := by
  obtain ⟨capital, small, rfl, _, hne, hsmall⟩ := exists_of_isSegment h
  refine ⟨capital :: small.dropLast, small.getLast hne, ?_, hsmall _ (List.getLast_mem hne)⟩
  rw [List.cons_append, List.dropLast_concat_getLast]

/-! ## Splitting -/

/-- That a text is split before a segment: one line feed at the very end does not count, and the part in front
is not empty and has no line feed. -/
structure SplitsInto (text start segment : List Char) : Prop where
  text_eq : text = start ++ segment ∨ text = start ++ segment ++ ['\n']
  start_ne_nil : start ≠ []
  newline_not_mem : '\n' ∉ start
  isSegment_segment : isSegment segment = true

theorem SplitsInto.segment_ne_nil {text start segment : List Char} (h : SplitsInto text start segment) :
    segment ≠ [] := by
  rintro rfl
  cases h.isSegment_segment

theorem dropFinalNewline_append (text : List Char) : dropFinalNewline (text ++ ['\n']) = text := by
  simp [dropFinalNewline]

theorem dropFinalNewline_of_ne {front : List Char} {c : Char} (hc : c ≠ '\n') :
    dropFinalNewline (front ++ [c]) = front ++ [c] := by
  unfold dropFinalNewline
  split
  · rename_i rest heq
    rw [List.reverse_append, List.reverse_singleton, List.singleton_append, List.cons.injEq] at heq
    exact absurd heq.1 hc
  · rfl

/-- At most a line feed at the end is dropped. -/
theorem eq_or_eq_of_dropFinalNewline {text rest : List Char} (h : dropFinalNewline text = rest) :
    text = rest ∨ text = rest ++ ['\n'] := by
  unfold dropFinalNewline at h
  split at h
  · rename_i reversed heq
    refine Or.inr ?_
    rw [← h, ← List.reverse_reverse text, heq, List.reverse_cons]
  · exact Or.inl h

/-- Read from its end, a text has the small letters of its last segment and then the capital. -/
theorem span_reverse_append {start small : List Char} {capital : Char} (hcapital : capital.isUpper = true)
    (hsmall : ∀ c ∈ small, c.isLower = true) :
    (start ++ capital :: small).reverse.span Char.isLower = (small.reverse, capital :: start.reverse) := by
  have hreverse : (start ++ capital :: small).reverse = small.reverse ++ capital :: start.reverse := by simp
  have hall : ∀ c ∈ small.reverse, c.isLower = true := fun c hc => hsmall c (List.mem_reverse.mp hc)
  have hstop : capital.isLower = false := not_isLower_of_isUpper hcapital
  rw [hreverse, List.span_eq_takeWhile_dropWhile, List.takeWhile_append_of_pos hall,
    List.dropWhile_append_of_pos hall]
  simp [hstop]

theorem splitsInto_of_splitCamel? {text start segment : List Char}
    (h : splitCamel? text = some (start, segment)) : SplitsInto text start segment := by
  unfold splitCamel? at h
  rw [List.span_eq_takeWhile_dropWhile] at h
  split at h
  · cases h
  · cases h
  · rename_i small capital rest hne hspan
    rw [Option.ite_none_right_eq_some, Option.some.injEq, Prod.mk.injEq] at h
    obtain ⟨hcond, rfl, rfl⟩ := h
    simp only [Bool.and_eq_true, Bool.not_eq_true', List.isEmpty_eq_false_iff, List.contains_eq_mem,
      decide_eq_false_iff_not] at hcond
    obtain ⟨⟨hcapital, hrest⟩, hnewline⟩ := hcond
    rw [Prod.mk.injEq] at hspan
    have hsmall : small.all Char.isLower = true := hspan.1 ▸ List.all_takeWhile
    have hwhole : small ++ capital :: rest = (dropFinalNewline text).reverse := by
      rw [← hspan.1, ← hspan.2, List.takeWhile_append_dropWhile]
    have htext : dropFinalNewline text = rest.reverse ++ capital :: small.reverse := by
      rw [← List.reverse_inj, ← hwhole]
      simp
    refine ⟨eq_or_eq_of_dropFinalNewline htext, by simpa using hrest, by simpa using hnewline, ?_⟩
    rw [isSegment, hcapital, List.all_reverse, hsmall]
    simpa using hne

theorem splitCamel?_of_splitsInto {text start segment : List Char} (h : SplitsInto text start segment) :
    splitCamel? text = some (start, segment) := by
  obtain ⟨htext, hstart, hnewline, hsegment⟩ := h
  obtain ⟨front, last, hlast, hlower⟩ := exists_last_of_isSegment hsegment
  obtain ⟨capital, small, rfl, hcapital, hne, hsmall⟩ := exists_of_isSegment hsegment
  have hdrop : dropFinalNewline text = start ++ capital :: small := by
    rcases htext with rfl | rfl
    · -- The text ends in a small letter, so nothing is dropped.
      rw [hlast, ← List.append_assoc]
      refine dropFinalNewline_of_ne ?_
      rintro rfl
      cases hlower
    · exact dropFinalNewline_append _
  unfold splitCamel?
  rw [hdrop, span_reverse_append hcapital hsmall]
  cases hreversed : small.reverse with
  | nil => exact absurd (List.reverse_eq_nil_iff.mp hreversed) hne
  | cons c cs => simp [hcapital, hstart, hnewline, ← hreversed]

/-- There is one way to split a text, if there is any. -/
theorem splitCamel?_eq_some_iff {text start segment : List Char} :
    splitCamel? text = some (start, segment) ↔ SplitsInto text start segment :=
  ⟨splitsInto_of_splitCamel?, splitCamel?_of_splitsInto⟩

/-- A segment cannot be split again: its only capital is its first letter. -/
theorem splitCamel?_segment {segment : List Char} (h : isSegment segment = true) :
    splitCamel? segment = none := by
  obtain ⟨capital, small, rfl, _, _, hsmall⟩ := exists_of_isSegment h
  refine Option.eq_none_iff_forall_ne_some.mpr fun ⟨start, later⟩ hsplit => ?_
  obtain ⟨htext, hstart, _, hlater⟩ := splitCamel?_eq_some_iff.mp hsplit
  obtain ⟨c, rest, rfl, hupper, _, _⟩ := exists_of_isSegment hlater
  obtain ⟨first, others, rfl⟩ := List.exists_cons_of_ne_nil hstart
  have hmem : c ∈ small := by
    rcases htext with htext | htext
    · rw [(List.cons.inj htext).2]
      simp
    · rw [(List.cons.inj htext).2]
      simp
  exact absurd (hsmall c hmem) (by simp [not_isLower_of_isUpper hupper])

/-! ## The rule that calls itself -/

/-- The plural of a text by a rule that calls itself for the last segment, with the number of calls that are
open at once. -/
inductive PluralizedAt : Nat → List Char → List Char → Prop
  | empty : PluralizedAt 0 [] []
  | whole {text : List Char} (hne : text ≠ []) (hsplit : splitCamel? text = none) :
    PluralizedAt 0 text (inflect text)
  | split {text start segment plural : List Char} {depth : Nat}
    (hsplit : splitCamel? text = some (start, segment)) (hplural : PluralizedAt depth segment plural) :
    PluralizedAt (depth + 1) text (start ++ plural)

theorem pluralizeChars_of_none {text : List Char} (hne : text ≠ []) (h : splitCamel? text = none) :
    pluralizeChars text = inflect text := by
  cases text with
  | nil => exact absurd rfl hne
  | cons c cs => simp [pluralizeChars, h]

/-- The plural of a text that is split is its first part as it is and the plural of its last segment. -/
theorem pluralizeChars_of_some {text start segment : List Char}
    (h : splitCamel? text = some (start, segment)) :
    pluralizeChars text = start ++ pluralizeChars segment := by
  have hsplits := splitsInto_of_splitCamel? h
  rw [pluralizeChars_of_none hsplits.segment_ne_nil (splitCamel?_segment hsplits.isSegment_segment)]
  cases text with
  | nil => cases h
  | cons c cs => simp [pluralizeChars, h]

/-- The rule ends for every text, with the plural: it calls itself once where a text is split. -/
theorem pluralizedAt_iff {depth : Nat} {text plural : List Char} :
    PluralizedAt depth text plural ↔
      depth = (if (splitCamel? text).isSome then 1 else 0) ∧ plural = pluralizeChars text := by
  constructor
  · intro h
    induction h with
    | empty => exact ⟨rfl, rfl⟩
    | whole hne hsplit => exact ⟨by simp [hsplit], (pluralizeChars_of_none hne hsplit).symm⟩
    | split hsplit _ ih =>
      obtain ⟨rfl, rfl⟩ := ih
      have hsegment := splitCamel?_segment (splitCamel?_eq_some_iff.mp hsplit).isSegment_segment
      exact ⟨by simp [hsplit, hsegment], (pluralizeChars_of_some hsplit).symm⟩
  · rintro ⟨rfl, rfl⟩
    have hwhole : ∀ word, splitCamel? word = none → PluralizedAt 0 word (pluralizeChars word) := by
      intro word hsplit
      by_cases hne : word = []
      · subst hne
        exact .empty
      · rw [pluralizeChars_of_none hne hsplit]
        exact .whole hne hsplit
    cases hsplit : splitCamel? text with
    | none => exact hwhole text hsplit
    | some parts =>
      rw [pluralizeChars_of_some hsplit]
      exact .split hsplit
        (hwhole _ (splitCamel?_segment (splitCamel?_eq_some_iff.mp hsplit).isSegment_segment))

/-! ## Main result -/

/--
The plural of a text that ends in a camel-case segment, behind a part without line feeds, is that part as it is
and the plural of the segment. For every text the rule that calls itself ends with one plural, at one depth,
which is at most one.
-/
theorem pluralize_last_segment :
    (∀ p w : String, p ≠ "" → '\n' ∉ p.toList → isSegment w.toList = true →
      pluralize (p ++ w) = p ++ pluralize w) ∧
    ∀ s : String, ∃ depth ≤ 1, ∀ d plural,
      PluralizedAt d s.toList plural ↔ d = depth ∧ plural = (pluralize s).toList := by
  constructor
  · intro p w hp hnewline hw
    have hsplits : SplitsInto (p ++ w).toList p.toList w.toList := {
      text_eq := Or.inl String.toList_append
      start_ne_nil := by simpa using hp
      newline_not_mem := hnewline
      isSegment_segment := hw }
    refine String.toList_inj.mp ?_
    rw [pluralize, String.toList_ofList, pluralizeChars_of_some (splitCamel?_of_splitsInto hsplits),
      String.toList_append, pluralize, String.toList_ofList]
  · intro s
    refine ⟨if (splitCamel? s.toList).isSome then 1 else 0, by split <;> decide, fun d plural => ?_⟩
    rw [pluralizedAt_iff, pluralize, String.toList_ofList]

/-- A first part with a capital, a digit, an underscore and a letter beyond ASCII. -/
theorem pluralize_last_segment_category :
    "Blog_2é" ≠ "" ∧ '\n' ∉ "Blog_2é".toList ∧ isSegment "Category".toList = true ∧
      pluralize ("Blog_2é" ++ "Category") = "Blog_2é" ++ pluralize "Category" :=
  ⟨by decide, by decide, by decide, pluralize_last_segment.1 _ _ (by decide) (by decide) (by decide)⟩

end OpenCrud.Naming
