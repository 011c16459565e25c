import Mathlib.Data.List.Infix
import OpenCrud.Text.ControlSequence

/-!
# What is left of a text without control sequences

A control sequence is told as a grammar (`IsSequence`), and reading one is shown to follow it
(`afterSequence?_eq_some_iff`). Main results: a text is left as it is exactly where no part of it is a control
sequence (`dropSequences_eq_self_iff`), and lines are shown one by one, since no sequence goes over the end of a
line (`dropSequences_append_newline`).
-/

namespace OpenCrud.Text

/-! ## Control sequences -/

/-- That a text is one control sequence. -/
def IsSequence (sequence : List Char) : Prop :=
  ∃ parameters intermediates final,
    sequence = escapeChar :: '[' :: (parameters ++ (intermediates ++ [final])) ∧
      (∀ c ∈ parameters, isParameter c = true) ∧ (∀ c ∈ intermediates, isIntermediate c = true) ∧
      isFinal final = true

/-- That a part of a text is a control sequence. -/
def HasSequence (text : List Char) : Prop := ∃ sequence, IsSequence sequence ∧ sequence <:+: text

theorem isParameter_eq_false_of_isIntermediate {c : Char} (h : isIntermediate c = true) :
    isParameter c = false := by
  simp only [isIntermediate, isParameter, Bool.and_eq_true, decide_eq_true_eq, Bool.and_eq_false_iff,
    decide_eq_false_iff_not] at h ⊢
  omega

theorem not_isParameter_of_isFinal {c : Char} (h : isFinal c = true) :
    isParameter c = false ∧ isIntermediate c = false := by
  simp only [isFinal, isIntermediate, isParameter, Bool.and_eq_true, decide_eq_true_eq, Bool.and_eq_false_iff,
    decide_eq_false_iff_not] at h ⊢
  omega

/-- What is dropped from the front of a text is all of a part, where the text goes on with something else. -/
theorem dropWhile_append_cons {p : Char → Bool} {front rest : List Char} {c : Char}
    (hfront : ∀ x ∈ front, p x = true) (hc : p c = false) :
    (front ++ c :: rest).dropWhile p = c :: rest := by
  rw [List.dropWhile_append_of_pos hfront, List.dropWhile_cons, hc]
  rfl

theorem afterSequence?_of_isSequence {sequence rest after : List Char} (h : IsSequence sequence)
    (hrest : escapeChar :: rest = sequence ++ after) : afterSequence? rest = some after := by
  obtain ⟨parameters, intermediates, final, rfl, hparameters, hintermediates, hfinal⟩ := h
  obtain ⟨hnoParameter, hnoIntermediate⟩ := not_isParameter_of_isFinal hfinal
  have hcs : rest = '[' :: (parameters ++ (intermediates ++ final :: after)) := by
    simpa using (List.cons.inj hrest).2
  have hdrop : (parameters ++ (intermediates ++ final :: after)).dropWhile isParameter =
      intermediates ++ final :: after := by
    cases intermediates with
    | nil => exact dropWhile_append_cons hparameters hnoParameter
    | cons c cs =>
      exact dropWhile_append_cons hparameters
        (isParameter_eq_false_of_isIntermediate (hintermediates c List.mem_cons_self))
  rw [hcs, afterSequence?, hdrop, dropWhile_append_cons hintermediates hnoIntermediate]
  simp [hfinal]

theorem exists_isSequence_of_afterSequence? {rest after : List Char} (h : afterSequence? rest = some after) :
    ∃ sequence, IsSequence sequence ∧ escapeChar :: rest = sequence ++ after := by
  unfold afterSequence? at h
  split at h
  · rename_i cs
    split at h
    · rename_i final later hdrop
      rw [Option.ite_none_right_eq_some, Option.some.injEq] at h
      obtain ⟨hfinal, rfl⟩ := h
      refine ⟨_, ⟨cs.takeWhile isParameter, (cs.dropWhile isParameter).takeWhile isIntermediate, final, rfl,
        List.all_eq_true.mp List.all_takeWhile, List.all_eq_true.mp List.all_takeWhile, hfinal⟩, ?_⟩
      have hcs : cs = cs.takeWhile isParameter ++
          ((cs.dropWhile isParameter).takeWhile isIntermediate ++ final :: later) := by
        rw [← hdrop, List.takeWhile_append_dropWhile, List.takeWhile_append_dropWhile]
      conv_lhs => rw [hcs]
      simp
    · cases h
  · cases h

/-- Behind an escape character, a control sequence is read exactly where there is one. -/
theorem afterSequence?_eq_some_iff {rest after : List Char} : afterSequence? rest = some after ↔
    ∃ sequence, IsSequence sequence ∧ escapeChar :: rest = sequence ++ after :=
  ⟨exists_isSequence_of_afterSequence?, fun ⟨_, h, hrest⟩ => afterSequence?_of_isSequence h hrest⟩

/-! ## The first escape character -/

/-- A text has no escape character, or a first one. -/
theorem eq_append_escape (text : List Char) : escapeChar ∉ text ∨
    ∃ before rest, escapeChar ∉ before ∧ text = before ++ escapeChar :: rest := by
  by_cases h : escapeChar ∈ text
  · obtain ⟨before, rest, rfl, hbefore⟩ := List.eq_append_cons_of_mem h
    exact Or.inr ⟨before, rest, hbefore, rfl⟩
  · exact Or.inl h

section FirstEscape

variable {before : List Char} (hbefore : escapeChar ∉ before) (rest : List Char)

include hbefore

theorem fromEscape_append : fromEscape (before ++ escapeChar :: rest) = escapeChar :: rest :=
  dropWhile_append_cons (fun c hc => decide_eq_true fun heq => hbefore (heq ▸ hc)) (by decide)

theorem beforeEscape_append : beforeEscape (before ++ escapeChar :: rest) = before := by
  have hwhole := beforeEscape_append_fromEscape (before ++ escapeChar :: rest)
  rw [fromEscape_append hbefore] at hwhole
  exact List.append_cancel_right hwhole

/-- What is read at the first escape character decides how a text goes on. -/
theorem dropSequences_append : dropSequences (before ++ escapeChar :: rest) = before ++
    match afterSequence? rest with
    | some after => dropSequences after
    | none => escapeChar :: dropSequences rest := by
  rw [dropSequences]
  split
  · rename_i hfrom
    rw [fromEscape_append hbefore] at hfrom
    cases hfrom
  · rename_i c later hfrom
    rw [fromEscape_append hbefore] at hfrom
    obtain ⟨rfl, rfl⟩ := List.cons.inj hfrom
    rw [beforeEscape_append hbefore]
    split
    · rename_i hafter
      simp only [hafter]
    · rename_i hafter
      simp only [hafter]

/-- A text has a control sequence at its first escape character or behind it. -/
theorem hasSequence_append_iff : HasSequence (before ++ escapeChar :: rest) ↔
    (afterSequence? rest).isSome = true ∨ HasSequence rest := by
  constructor
  · rintro ⟨sequence, hsequence, front, back, heq⟩
    obtain ⟨body, rfl⟩ : ∃ body, sequence = escapeChar :: body := by
      obtain ⟨_, _, _, rfl, _⟩ := hsequence
      exact ⟨_, rfl⟩
    rw [List.append_assoc, List.cons_append, List.append_eq_append_iff] at heq
    rcases heq with ⟨later, rfl, heq⟩ | ⟨later, rfl, heq⟩
    · -- The sequence would start in front of the first escape character.
      cases later with
      | nil =>
        have hafter : afterSequence? rest = some back := afterSequence?_of_isSequence hsequence heq.symm
        exact Or.inl (hafter ▸ rfl)
      | cons c cs =>
        obtain ⟨rfl, _⟩ := List.cons.inj heq
        exact absurd (List.mem_append_right _ List.mem_cons_self) hbefore
    · cases later with
      | nil =>
        have hafter : afterSequence? rest = some back := afterSequence?_of_isSequence hsequence heq
        exact Or.inl (hafter ▸ rfl)
      | cons c cs =>
        obtain ⟨_, rfl⟩ := List.cons.inj heq
        exact Or.inr ⟨_, hsequence, cs, back, by simp⟩
  · rintro (hsome | ⟨sequence, hsequence, hpart⟩)
    · obtain ⟨after, hafter⟩ := Option.isSome_iff_exists.mp hsome
      obtain ⟨sequence, hsequence, heq⟩ := afterSequence?_eq_some_iff.mp hafter
      exact ⟨sequence, hsequence, before, after, by rw [heq, List.append_assoc]⟩
    · refine ⟨sequence, hsequence, hpart.trans (List.IsSuffix.isInfix ⟨before ++ [escapeChar], by simp⟩)⟩

end FirstEscape

theorem not_hasSequence {text : List Char} (h : escapeChar ∉ text) : ¬HasSequence text := by
  rintro ⟨sequence, ⟨_, _, _, rfl, _⟩, hpart⟩
  exact h (hpart.subset List.mem_cons_self)

/-- Texts can be gone through as they are read: up to the first escape character, and on behind the control
sequence there or else behind the character. -/
@[elab_as_elim]
theorem readingInduction {P : List Char → Prop} (plain : ∀ text, escapeChar ∉ text → P text)
    (sequence : ∀ before rest after, escapeChar ∉ before → afterSequence? rest = some after → P after →
      P (before ++ escapeChar :: rest))
    (other : ∀ before rest, escapeChar ∉ before → afterSequence? rest = none → P rest →
      P (before ++ escapeChar :: rest)) (text : List Char) : P text := by
  induction hlength : text.length using Nat.strong_induction_on generalizing text with
  | _ n ih =>
    rcases eq_append_escape text with hnone | ⟨before, rest, hbefore, rfl⟩
    · exact plain text hnone
    · rw [List.length_append, List.length_cons] at hlength
      cases hafter : afterSequence? rest with
      | none => exact other before rest hbefore hafter (ih rest.length (by omega) rest rfl)
      | some after =>
        have hshorter := length_afterSequence? hafter
        exact sequence before rest after hbefore hafter (ih after.length (by omega) after rfl)

/-! ## What is left -/

theorem length_dropSequences_le (text : List Char) : (dropSequences text).length ≤ text.length := by
  induction text using readingInduction with
  | plain text hnone => rw [dropSequences_of_not_mem hnone]
  | sequence before rest after hbefore hafter ih =>
    have hshorter := length_afterSequence? hafter
    simp only [dropSequences_append hbefore, hafter, List.length_append, List.length_cons]
    omega
  | other before rest hbefore hafter ih =>
    simp only [dropSequences_append hbefore, hafter, List.length_append, List.length_cons]
    omega

/-- A text is left as it is exactly where no part of it is a control sequence. -/
theorem dropSequences_eq_self_iff {text : List Char} : dropSequences text = text ↔ ¬HasSequence text := by
  induction text using readingInduction with
  | plain text hnone => exact iff_of_true (dropSequences_of_not_mem hnone) (not_hasSequence hnone)
  | sequence before rest after hbefore hafter =>
    -- What is left is shorter than what was read.
    have hshorter := length_afterSequence? hafter
    have hle := length_dropSequences_le after
    rw [dropSequences_append hbefore, hasSequence_append_iff hbefore, List.append_cancel_left_eq]
    simp only [hafter]
    refine iff_of_false (fun heq => ?_) (fun hc => hc (Or.inl rfl))
    have hlength := congrArg List.length heq
    rw [List.length_cons] at hlength
    omega
  | other before rest hbefore hafter ih =>
    rw [dropSequences_append hbefore, hasSequence_append_iff hbefore, List.append_cancel_left_eq]
    simp [hafter, ih]

/-! ## Lines -/

theorem newline_not_mem_of_isSequence {sequence : List Char} (h : IsSequence sequence) : '\n' ∉ sequence := by
  obtain ⟨parameters, intermediates, final, rfl, hparameters, hintermediates, hfinal⟩ := h
  simp only [List.mem_cons, List.mem_append, List.not_mem_nil, or_false, not_or]
  refine ⟨by decide, by decide, fun hc => ?_, fun hc => ?_, ?_⟩
  · exact absurd (hparameters _ hc) (by decide)
  · exact absurd (hintermediates _ hc) (by decide)
  · rintro rfl
    exact absurd hfinal (by decide)

/-- A control sequence ends on the line on which it starts. -/
theorem afterSequence?_append_newline (rest later : List Char) :
    afterSequence? (rest ++ '\n' :: later) = (afterSequence? rest).map (· ++ '\n' :: later) := by
  refine Option.ext fun after => ?_
  rw [afterSequence?_eq_some_iff, Option.map_eq_some_iff]
  simp only [afterSequence?_eq_some_iff]
  constructor
  · rintro ⟨sequence, hsequence, heq⟩
    rw [← List.cons_append, List.append_eq_append_iff] at heq
    rcases heq with ⟨more, rfl, heq⟩ | ⟨more, heq, rfl⟩
    · cases more with
      | nil => exact ⟨[], ⟨_, hsequence, by simp⟩, heq⟩
      | cons c cs =>
        obtain ⟨rfl, _⟩ := List.cons.inj heq
        exact absurd (List.mem_append_right _ List.mem_cons_self) (newline_not_mem_of_isSequence hsequence)
    · exact ⟨more, ⟨sequence, hsequence, heq⟩, rfl⟩
  · rintro ⟨more, ⟨sequence, hsequence, heq⟩, rfl⟩
    exact ⟨sequence, hsequence, by rw [← List.cons_append, heq, List.append_assoc]⟩

theorem dropSequences_append_of_not_mem {before : List Char} (h : escapeChar ∉ before) (rest : List Char) :
    dropSequences (before ++ rest) = before ++ dropSequences rest := by
  rcases eq_append_escape rest with hnone | ⟨middle, later, hmiddle, rfl⟩
  · rw [dropSequences_of_not_mem hnone, dropSequences_of_not_mem]
    exact List.not_mem_append h hnone
  · rw [← List.append_assoc, dropSequences_append (List.not_mem_append h hmiddle), dropSequences_append hmiddle,
      List.append_assoc]

/-- The lines of a text are shown one by one. -/
theorem dropSequences_append_newline (line later : List Char) :
    dropSequences (line ++ '\n' :: later) = dropSequences line ++ '\n' :: dropSequences later := by
  induction line using readingInduction with
  | plain line hnone =>
    have hfront : escapeChar ∉ line ++ ['\n'] := List.not_mem_append hnone (by decide)
    have hline : line ++ '\n' :: later = line ++ ['\n'] ++ later := by simp
    rw [hline, dropSequences_append_of_not_mem hfront, dropSequences_of_not_mem hnone]
    simp
  | sequence before rest after hbefore hafter ih =>
    rw [List.append_assoc, List.cons_append, dropSequences_append hbefore, dropSequences_append hbefore,
      afterSequence?_append_newline, List.append_assoc]
    simp only [hafter, Option.map_some, ih]
  | other before rest hbefore hafter ih =>
    rw [List.append_assoc, List.cons_append, dropSequences_append hbefore, dropSequences_append hbefore,
      afterSequence?_append_newline, List.append_assoc]
    simp only [hafter, Option.map_none, ih, List.cons_append]

end OpenCrud.Text
