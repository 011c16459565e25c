import Mathlib.Algebra.GroupWithZero.Nat
import Mathlib.Data.List.Infix
import OpenCrud.Client.Source
import OpenCrud.Sdl.Scan

/-!
# Texts between backticks

How ECMAScript reads a template literal (`templateValue?`), and which texts come out of it as they went in.
Main result: a text that is written between backticks, with a backslash before each of its own backticks, is
read back exactly where it has no backslash, no carriage return and no dollar sign before a brace
(`templateValue?_embedded_iff`).

A text with a backslash cannot be read back by chance: an escape stands for fewer code units than it has
characters, and nothing makes up for the loss.
-/

namespace OpenCrud.Client

open Sdl (hexValue? hex4?)

/-! ## Reading template literals -/

/-- The UTF-16 code units of a code point. -/
def codeUnits (n : Nat) : List Nat :=
  if n < 0x10000 then [n] else [0xd800 + (n - 0x10000) / 0x400, 0xdc00 + (n - 0x10000) % 0x400]

/-- The UTF-16 code units of a text, which are what a string is made of. -/
def textUnits (text : List Char) : List Nat := text.flatMap fun c => codeUnits c.toNat

theorem textUnits_cons (c : Char) (text : List Char) :
    textUnits (c :: text) = codeUnits c.toNat ++ textUnits text :=
  List.flatMap_cons

/-- Whether a character ends a line of a script. -/
def isLineTerminator (c : Char) : Bool := c = '\n' || c = '\r' || c = '\u2028' || c = '\u2029'

/-- The characters whose escapes stand for a control character. -/
def controlEscape? (c : Char) : Option Nat :=
  [('b', 0x08), ('t', 0x09), ('n', 0x0a), ('v', 0x0b), ('f', 0x0c), ('r', 0x0d)].lookup c

/-- The number that hexadecimal digits stand for. -/
def hexNumber (digits : List Char) : Nat :=
  digits.foldl (fun n c => 16 * n + (hexValue? c).getD 0) 0

/-- The value of two hexadecimal digits. -/
def hex2? : List Char → Option Nat
  | a :: b :: _ => do pure ((← hexValue? a) * 0x10 + (← hexValue? b))
  | _ => none

/-- The code units of a Unicode escape from behind its letter, and the number of characters read with the
letter: four digits, or the digits of a code point in braces. -/
def unicodeEscape? (cs : List Char) : Option (List Nat × Nat) :=
  if cs.head? = some '{' then
    let digits := cs.tail.takeWhile fun c => (hexValue? c).isSome
    if !digits.isEmpty && (cs.tail.drop digits.length).head? = some '\x7d' && hexNumber digits ≤ 0x10ffff then
      some (codeUnits (hexNumber digits), digits.length + 3)
    else none
  else (hex4? cs).map fun n => ([n], 5)

/-- The code units of an escape from behind its backslash, and the number of characters read. A line end
stands for nothing, and so does no digit but a zero on its own. -/
def templateEscape? : List Char → Option (List Nat × Nat)
  | [] => none
  | c :: cs =>
    if c = '\r' ∧ cs.head? = some '\n' then some ([], 2)
    else if isLineTerminator c then some ([], 1)
    else if c = '0' ∧ (cs.head?.any Char.isDigit) = false then some ([0], 1)
    else if c.isDigit then none
    else if c = 'x' then (hex2? cs).map fun n => ([n], 3)
    else if c = 'u' then unicodeEscape? cs
    else some (((controlEscape? c).map fun n => [n]).getD (codeUnits c.toNat), 1)

/-- Reads a template from behind its first backtick up to the last one, which has to be the end of the text.
The first `skip` characters have been read already. A substitution is no part of a text. -/
def readTemplate : (skip : Nat) → List Char → Option (List Nat)
  | _, [] => none
  | skip + 1, _ :: cs => readTemplate skip cs
  | 0, c :: cs =>
    if c = '\x60' then if cs.isEmpty then some [] else none
    else if c = '\\' then
      match templateEscape? cs with
      | none => none
      | some (value, length) => (readTemplate length cs).map (value ++ ·)
    else if c = '$' ∧ cs.head? = some '{' then none
    else if c = '\r' then
      (readTemplate (if cs.head? = some '\n' then 1 else 0) cs).map (0x0a :: ·)
    else (readTemplate 0 cs).map (codeUnits c.toNat ++ ·)

/-- The value of a text that is one template literal without substitutions. -/
def templateValue? : List Char → Option (List Nat)
  | [] => none
  | c :: cs => if c = '\x60' then readTemplate 0 cs else none

/-! ## Embedding -/

/-- A text between backticks, with a backslash before each of its own. -/
def embedded (text : List Char) : List Char := '\x60' :: text.flatMap escapeBacktick ++ ['\x60']

/-- That a text has nothing that is read as something else between backticks. -/
structure ReadsAsIs (text : List Char) : Prop where
  no_backslash : '\\' ∉ text
  no_return : '\r' ∉ text
  no_substitution : ¬['$', '{'] <:+: text

instance (text : List Char) : Decidable (ReadsAsIs text) :=
  decidable_of_iff ('\\' ∉ text ∧ '\r' ∉ text ∧ ¬['$', '{'] <:+: text)
    ⟨fun h => ⟨h.1, h.2.1, h.2.2⟩, fun h => ⟨h.1, h.2, h.3⟩⟩

theorem readsAsIs_nil : ReadsAsIs [] := ⟨nofun, nofun, by simp⟩

/-- Where two characters stand next to each other. -/
theorem pair_infix_cons_iff {a b c : Char} {text : List Char} :
    [a, b] <:+: c :: text ↔ (c = a ∧ text.head? = some b) ∨ [a, b] <:+: text := by
  have hprefix : [a, b] <+: c :: text ↔ c = a ∧ text.head? = some b := by
    cases text with
    | nil => simp
    | cons d rest => simp [eq_comm]
  rw [List.infix_cons_iff, hprefix]

theorem readsAsIs_cons_iff {c : Char} {text : List Char} :
    ReadsAsIs (c :: text) ↔
      (c ≠ '\\' ∧ c ≠ '\r' ∧ ¬(c = '$' ∧ text.head? = some '{')) ∧ ReadsAsIs text := by
  constructor
  · rintro ⟨hbackslash, hreturn, hsubstitution⟩
    rw [List.mem_cons, not_or] at hbackslash hreturn
    rw [pair_infix_cons_iff, not_or] at hsubstitution
    exact ⟨⟨Ne.symm hbackslash.1, Ne.symm hreturn.1, hsubstitution.1⟩,
      hbackslash.2, hreturn.2, hsubstitution.2⟩
  · rintro ⟨⟨hbackslash, hreturn, hsubstitution⟩, hrest⟩
    refine ⟨?_, ?_, ?_⟩
    · rw [List.mem_cons, not_or]
      exact ⟨Ne.symm hbackslash, hrest.no_backslash⟩
    · rw [List.mem_cons, not_or]
      exact ⟨Ne.symm hreturn, hrest.no_return⟩
    · rw [pair_infix_cons_iff, not_or]
      exact ⟨hsubstitution, hrest.no_substitution⟩

/-! ## Lengths -/

/-- The number of code units of what is no backtick. -/
def weight (cs : List Char) : Nat :=
  (cs.map fun c => if c = '\x60' then 0 else (codeUnits c.toNat).length).sum

theorem weight_cons (c : Char) (cs : List Char) :
    weight (c :: cs) = (if c = '\x60' then 0 else (codeUnits c.toNat).length) + weight cs := by
  simp [weight]

theorem weight_take_add_drop (n : Nat) (cs : List Char) :
    weight (cs.take n) + weight (cs.drop n) = weight cs := by
  rw [weight, weight, weight, ← List.sum_append, ← List.map_append, List.take_append_drop]

theorem length_codeUnits_pos (n : Nat) : 0 < (codeUnits n).length := by
  unfold codeUnits
  split <;> simp

theorem length_codeUnits_le (n : Nat) : (codeUnits n).length ≤ 2 := by
  unfold codeUnits
  split <;> simp

theorem two_le_weight_take (n : Nat) (cs : List Char) : 2 ≤ weight (('u' :: '{' :: cs).take (n + 3)) := by
  have hone : (codeUnits 'u'.toNat).length = 1 ∧ (codeUnits '{'.toNat).length = 1 := by decide
  rw [List.take_succ_cons, weight_cons, List.take_succ_cons, weight_cons, if_neg (by decide),
    if_neg (by decide), hone.1, hone.2]
  omega

theorem one_le_weight_take {c : Char} (hc : c ≠ '\x60') (n : Nat) (cs : List Char) :
    1 ≤ weight ((c :: cs).take (n + 1)) := by
  have hpos := length_codeUnits_pos c.toNat
  rw [List.take_succ_cons, weight_cons, if_neg hc]
  omega

/-- The letter and the brace make up for two code units. -/
theorem length_unicodeEscape_le {cs : List Char} {value : List Nat} {length : Nat}
    (h : unicodeEscape? cs = some (value, length)) :
    value.length ≤ weight (('u' :: cs).take length) := by
  unfold unicodeEscape? at h
  split at h
  · rename_i hbrace
    obtain ⟨rest, rfl⟩ := List.head?_eq_some_iff.mp hbrace
    dsimp only at h
    split at h
    · cases h
      exact (length_codeUnits_le _).trans (two_le_weight_take _ _)
    · cases h
  · obtain ⟨n, _, heq⟩ := Option.map_eq_some_iff.mp h
    cases heq
    exact one_le_weight_take (by decide) _ _

/-- An escape stands for no more code units than it has characters behind the backslash; that of a backtick
stands for the backtick. -/
theorem length_templateEscape_le {cs : List Char} {value : List Nat} {length : Nat}
    (h : templateEscape? cs = some (value, length)) (hne : cs.head? ≠ some '\x60') :
    value.length ≤ weight (cs.take length) := by
  cases cs with
  | nil => cases h
  | cons c cs =>
    have hc : c ≠ '\x60' := by
      rintro rfl
      exact hne rfl
    have hweight : weight ([c] : List Char) = (codeUnits c.toNat).length := by
      rw [weight_cons, if_neg hc]
      rfl
    rw [templateEscape?] at h
    split at h
    · cases h
      exact Nat.zero_le _
    split at h
    · cases h
      exact Nat.zero_le _
    split at h
    · cases h
      exact one_le_weight_take hc 0 cs
    split at h
    · cases h
    split at h
    · obtain ⟨n, _, heq⟩ := Option.map_eq_some_iff.mp h
      cases heq
      exact one_le_weight_take hc 2 cs
    -- The escapes with digits are longer than what they stand for.
    split at h
    · rename_i hu
      subst hu
      exact length_unicodeEscape_le h
    · cases h
      rw [List.take_succ_cons, List.take_zero, hweight]
      cases controlEscape? c with
      | none => exact le_refl _
      | some n => exact length_codeUnits_pos _

theorem templateEscape?_backtick (cs : List Char) : templateEscape? ('\x60' :: cs) = some ([0x60], 1) := by
  have hcontrol : controlEscape? '\x60' = none := by decide
  simp [templateEscape?, isLineTerminator, hcontrol, codeUnits]

/-- What is read has no more code units than there are outside of backticks: the backslash of an escaped
backtick makes up for it. -/
theorem length_readTemplate_le {cs : List Char} :
    ∀ {skip : Nat} {value : List Nat}, readTemplate skip cs = some value →
      value.length ≤ weight (cs.drop skip) := by
  induction cs with
  | nil => exact nofun
  | cons c cs ih =>
    intro skip value h
    cases skip with
    | succ skip => exact ih h
    | zero =>
      rw [List.drop_zero, weight_cons]
      unfold readTemplate at h
      -- An unescaped backtick ends the literal, so nothing may follow it.
      split at h
      · split at h
        · cases h
          exact Nat.zero_le _
        · cases h
      rename_i hc
      rw [if_neg hc]
      split at h
      · rename_i hbackslash
        subst hbackslash
        split at h
        · cases h
        · rename_i escaped length hescape
          obtain ⟨rest, hrest, rfl⟩ := Option.map_eq_some_iff.mp h
          have hlater := ih hrest
          have hsplit := weight_take_add_drop length cs
          have hone : (codeUnits '\\'.toNat).length = 1 := by decide
          rw [List.length_append, hone]
          -- The backslash before a backtick pays for the backtick, which has no weight itself.
          by_cases hhead : cs.head? = some '\x60'
          · obtain ⟨tail, rfl⟩ := List.head?_eq_some_iff.mp hhead
            rw [templateEscape?_backtick] at hescape
            cases hescape
            simp only [List.length_singleton]
            omega
          · have hescaped := length_templateEscape_le hescape hhead
            omega
      split at h
      · cases h
      split at h
      · obtain ⟨rest, hrest, rfl⟩ := Option.map_eq_some_iff.mp h
        have hlater := ih hrest
        have hpos := length_codeUnits_pos c.toNat
        have hdrop := weight_take_add_drop (if cs.head? = some '\n' then 1 else 0) cs
        rw [List.length_cons]
        omega
      · obtain ⟨rest, hrest, rfl⟩ := Option.map_eq_some_iff.mp h
        have hlater := ih hrest
        rw [List.drop_zero] at hlater
        rw [List.length_append]
        omega

/-! ## Texts that are read back -/

theorem weight_embedded (text : List Char) :
    weight (text.flatMap escapeBacktick ++ ['\x60']) = (textUnits text).length := by
  induction text with
  | nil => rfl
  | cons c text ih =>
    rw [List.flatMap_cons, textUnits_cons, List.length_append, ← ih]
    by_cases hc : c = '\x60'
    · have hone : (codeUnits '\\'.toNat).length = (codeUnits '\x60'.toNat).length := by decide
      rw [hc, escapeBacktick, if_pos rfl, List.append_assoc, List.cons_append, weight_cons,
        List.singleton_append, weight_cons, if_neg (by decide), if_pos rfl, Nat.zero_add, hone]
    · rw [escapeBacktick, if_neg hc, List.append_assoc, List.singleton_append, weight_cons, if_neg hc]

theorem head?_embedded {c : Char} (hc : c ≠ '\x60') (hbackslash : c ≠ '\\') (text : List Char) :
    (text.flatMap escapeBacktick ++ ['\x60']).head? = some c ↔ text.head? = some c := by
  cases text with
  | nil => simp [Ne.symm hc]
  | cons d text =>
    by_cases hd : d = '\x60'
    · subst hd
      simp [escapeBacktick, Ne.symm hc, Ne.symm hbackslash]
    · simp [escapeBacktick, hd]

/-- A text behind a backslash is too short when it is read back. -/
theorem readTemplate_backslash_ne (text : List Char) :
    readTemplate 0 ('\\' :: (text.flatMap escapeBacktick ++ ['\x60'])) ≠ some (textUnits ('\\' :: text)) := by
  intro h
  have hlength := length_readTemplate_le h
  rw [readTemplate, if_neg (by decide), if_pos rfl] at h
  split at h
  · cases h
  · rename_i escaped length hescape
    obtain ⟨rest, hrest, heq⟩ := Option.map_eq_some_iff.mp h
    have hlater := length_readTemplate_le hrest
    have hsplit := weight_take_add_drop length (text.flatMap escapeBacktick ++ ['\x60'])
    have hunits := congrArg List.length heq
    have hone : (codeUnits '\\'.toNat).length = 1 := by decide
    rw [List.length_append, textUnits_cons, List.length_append, hone, ← weight_embedded] at hunits
    cases text with
    | nil =>
      -- The backslash takes the last backtick away.
      rw [List.flatMap_nil, List.nil_append, templateEscape?_backtick] at hescape
      cases hescape
      cases hrest
    | cons c text =>
      have hhead : ((c :: text).flatMap escapeBacktick ++ ['\x60']).head? ≠ some '\x60' := by
        by_cases hc : c = '\x60'
        · simp [escapeBacktick, hc]
        · simp [escapeBacktick, hc]
      have hescaped := length_templateEscape_le hescape hhead
      omega

theorem map_append_eq_iff {x : Option (List Nat)} {start rest : List Nat} :
    x.map (start ++ ·) = some (start ++ rest) ↔ x = some rest := by
  cases x <;> simp

/-- Behind its first backtick, an embedded text is read back exactly where it reads as it is. -/
theorem readTemplate_embedded_iff (text : List Char) :
    readTemplate 0 (text.flatMap escapeBacktick ++ ['\x60']) = some (textUnits text) ↔ ReadsAsIs text := by
  -- By induction: a character that is read as something else is a backslash, a carriage return or an embedding.
  induction text with
  | nil => exact ⟨fun _ => readsAsIs_nil, fun _ => rfl⟩
  | cons c text ih =>
    rw [readsAsIs_cons_iff, ← ih]
    by_cases hbacktick : c = '\x60'
    · subst hbacktick
      have hread : readTemplate 0 (('\x60' :: text).flatMap escapeBacktick ++ ['\x60']) =
          (readTemplate 0 (text.flatMap escapeBacktick ++ ['\x60'])).map ([0x60] ++ ·) := by
        rw [List.flatMap_cons, escapeBacktick, if_pos rfl, List.append_assoc, List.cons_append,
          List.singleton_append, readTemplate, if_neg (by decide), if_pos rfl]
        simp only [templateEscape?_backtick, readTemplate]
      have hunits : textUnits ('\x60' :: text) = [0x60] ++ textUnits text := textUnits_cons _ _
      rw [hread, hunits, map_append_eq_iff]
      exact ⟨fun h => ⟨⟨by decide, by decide, by simp⟩, h⟩, And.right⟩
    rw [List.flatMap_cons, escapeBacktick, if_neg hbacktick, List.append_assoc, List.singleton_append]
    by_cases hbackslash : c = '\\'
    · subst hbackslash
      exact ⟨fun h => absurd h (readTemplate_backslash_ne text), fun h => absurd rfl h.1.1⟩
    rw [readTemplate, if_neg hbacktick, if_neg hbackslash, textUnits_cons]
    have hbrace := head?_embedded (c := '{') (by decide) (by decide) text
    by_cases hdollar : c = '$' ∧ text.head? = some '{'
    · rw [if_pos ⟨hdollar.1, hbrace.mpr hdollar.2⟩]
      exact ⟨nofun, fun h => absurd hdollar h.1.2.2⟩
    rw [if_neg fun hc => hdollar ⟨hc.1, hbrace.mp hc.2⟩]
    by_cases hreturn : c = '\r'
    · -- A carriage return is read as a line feed.
      subst hreturn
      rw [if_pos rfl]
      refine ⟨fun h => ?_, fun h => absurd rfl h.1.2.1⟩
      obtain ⟨rest, _, heq⟩ := Option.map_eq_some_iff.mp h
      cases heq
    · rw [if_neg hreturn, map_append_eq_iff]
      exact ⟨fun h => ⟨⟨hbackslash, hreturn, hdollar⟩, h⟩, And.right⟩

/-- An embedded text is one template literal with the value of the text exactly where it reads as it is. -/
theorem templateValue?_embedded_iff (text : List Char) :
    templateValue? (embedded text) = some (textUnits text) ↔ ReadsAsIs text := by
  rw [embedded, List.cons_append, templateValue?, if_pos rfl]
  exact readTemplate_embedded_iff text

end OpenCrud.Client
