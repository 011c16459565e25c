import OpenCrud.Proofs.Decimal
import OpenCrud.Proofs.FieldMap
import OpenCrud.Proofs.Generate.Correspondence

/-!
# Arguments by their texts

A run finds an answer again by the text of the arguments. This file shows that the text says all that a
generator reads of them: two objects with the same text have the same entries under a plain key as far as
their truth goes, so arguments that come from objects are determined by their texts (`distinct_ofObject`).

The texts of two values can differ and stand for the same truth, and texts of different values can be equal:
floats that are no numbers all have one text. What is needed is weaker. A text can be read back part by part,
because a scan that counts brackets stops right behind every value (`Whole`), and the truth of a value can be
seen in its text (`isFalsyText`).
-/

namespace OpenCrud.Value

/-! ## Scanning a value -/

/-- Where a scan is: outside of texts, in a text, or behind a backslash. -/
inductive Reading where
  | plain
  | quoted
  | escaped

/-- What stands behind the value at the start, with brackets open already. -/
def afterValue : Reading → Nat → List Char → List Char
  | _, _, [] => []
  | .plain, depth, c :: cs =>
    if c = '"' then afterValue .quoted depth cs
    else if ['[', '\x7b'].contains c then afterValue .plain (depth + 1) cs
    else if [']', '\x7d'].contains c then
      match depth with
      | 0 => c :: cs
      | depth + 1 => afterValue .plain depth cs
    else if depth = 0 && [',', ':'].contains c then c :: cs
    else afterValue .plain depth cs
  | .quoted, depth, c :: cs =>
    if c = '"' then afterValue .plain depth cs
    else if c = '\\' then afterValue .escaped depth cs
    else afterValue .quoted depth cs
  | .escaped, depth, _ :: cs => afterValue .quoted depth cs

/-- A scan does not stop in these characters. -/
def Whole (cs : List Char) : Prop :=
  ∀ depth rest, afterValue .plain depth (cs ++ rest) = afterValue .plain depth rest

/-- A scan does not stop in these characters if it is inside of a bracket. -/
def Inner (cs : List Char) : Prop :=
  ∀ depth rest, afterValue .plain (depth + 1) (cs ++ rest) = afterValue .plain (depth + 1) rest

/-- A scan stops before these characters. -/
def Stops (cs : List Char) : Prop := afterValue .plain 0 cs = cs

section Scan

variable {cs cs' rest rest' : List Char}

theorem Whole.inner (h : Whole cs) : Inner cs := fun depth rest => h (depth + 1) rest

theorem inner_nil : Inner [] := fun _ _ => rfl

theorem Inner.append (h : Inner cs) (h' : Inner cs') : Inner (cs ++ cs') := by
  intro depth rest
  rw [List.append_assoc, h, h']

/-- Characters between brackets are scanned as one value. -/
theorem Inner.bracketed {opening closing : Char} (h : Inner cs)
    (hpair : (opening, closing) ∈ [('[', ']'), ('\x7b', '\x7d')]) :
    Whole (opening :: (cs ++ [closing])) := by
  intro depth rest
  have hbrackets : afterValue .plain depth (opening :: (cs ++ [closing] ++ rest)) =
      afterValue .plain (depth + 1) (cs ++ (closing :: rest)) ∧
        afterValue .plain (depth + 1) (closing :: rest) = afterValue .plain depth rest := by
    rw [List.append_assoc]
    rcases List.mem_cons.mp hpair with hpair | hpair
    · cases hpair
      exact ⟨rfl, rfl⟩
    · cases List.mem_singleton.mp hpair
      exact ⟨rfl, rfl⟩
  calc afterValue .plain depth (opening :: (cs ++ [closing]) ++ rest)
      = afterValue .plain (depth + 1) (cs ++ (closing :: rest)) := hbrackets.1
    _ = afterValue .plain (depth + 1) (closing :: rest) := h depth _
    _ = afterValue .plain depth rest := hbrackets.2

/-- A value and what stands behind it can be told from their text. -/
theorem Whole.append_inj (h : Whole cs) (h' : Whole cs') (hrest : Stops rest) (hrest' : Stops rest')
    (heq : cs ++ rest = cs' ++ rest') : cs = cs' ∧ rest = rest' := by
  have hscan : afterValue .plain 0 (cs ++ rest) = afterValue .plain 0 (cs' ++ rest') := by rw [heq]
  rw [h, h', hrest, hrest'] at hscan
  subst hscan
  exact ⟨List.append_cancel_right heq, rfl⟩

/-- The characters that mean nothing to a scan. -/
def isPlain (c : Char) : Bool := !(['"', '[', ']', '\x7b', '\x7d', ',', ':'].contains c)

theorem afterValue_plain {c : Char} (hc : isPlain c = true) (depth : Nat) :
    afterValue .plain depth (c :: rest) = afterValue .plain depth rest := by
  simp only [isPlain, List.contains_cons, List.contains_nil, Bool.or_false, Bool.not_eq_true',
    Bool.or_eq_false_iff, beq_eq_false_iff_ne] at hc
  obtain ⟨hquote, hopen, hclose, hopen', hclose', hcomma, hcolon⟩ := hc
  simp [afterValue, hquote, hopen, hclose, hopen', hclose', hcomma, hcolon]

theorem whole_of_isPlain (h : ∀ c ∈ cs, isPlain c = true) : Whole cs := by
  induction cs with
  | nil => exact fun _ _ => rfl
  | cons c cs ih =>
    intro depth rest
    rw [List.cons_append, afterValue_plain (h c List.mem_cons_self)]
    exact ih (fun d hd => h d (List.mem_cons_of_mem _ hd)) depth rest

end Scan

/-! ## Quoted texts -/

theorem ne_of_mem_toDigits {c : Char} {n : Nat} (hc : c ∈ Nat.toDigits 16 n) : c ≠ '"' ∧ c ≠ '\\' := by
  have hdigit : ∀ d < 16, Nat.digitChar d ≠ '"' ∧ Nat.digitChar d ≠ '\\' := by decide
  induction n using Nat.strongRecOn with
  | ind n ih =>
    rw [Nat.toDigits_eq_if (by decide)] at hc
    split at hc
    · rename_i hn
      rw [List.mem_singleton.mp hc]
      exact hdigit n hn
    · rename_i hn
      rcases List.mem_append.mp hc with hc | hc
      · exact ih (n / 16) (Nat.div_lt_self (by omega) (by decide)) hc
      · rw [List.mem_singleton.mp hc]
        exact hdigit (n % 16) (Nat.mod_lt _ (by decide))

theorem afterValue_quoted {cs : List Char} (h : ∀ c ∈ cs, c ≠ '"' ∧ c ≠ '\\') (depth : Nat)
    (rest : List Char) : afterValue .quoted depth (cs ++ rest) = afterValue .quoted depth rest := by
  induction cs with
  | nil => rfl
  | cons c cs ih =>
    obtain ⟨hquote, hbackslash⟩ := h c List.mem_cons_self
    rw [List.cons_append, afterValue, if_neg hquote, if_neg hbackslash]
    exact ih fun d hd => h d (List.mem_cons_of_mem _ hd)

theorem afterValue_escapeUnit (unit depth : Nat) (rest : List Char) :
    afterValue .quoted depth (escapeUnit unit ++ rest) = afterValue .quoted depth rest := by
  have hdigits : ∀ c ∈ Text.hexDigits 4 unit, c ≠ '"' ∧ c ≠ '\\' := by
    intro c hc
    rcases List.mem_append.mp hc with hc | hc
    · rw [List.eq_of_mem_replicate hc]
      decide
    · exact ne_of_mem_toDigits hc
  exact afterValue_quoted hdigits depth rest

/-- How a character of a quoted text is written: as it is, or with a backslash. -/
theorem escapeKeyChar_cases (c : Char) :
    (escapeKeyChar c = [c] ∧ c ≠ '"' ∧ c ≠ '\\') ∨
      (∃ d, escapeKeyChar c = ['\\', d]) ∨ (∃ unit, escapeKeyChar c = escapeUnit unit) ∨
        ∃ high low, escapeKeyChar c = escapeUnit high ++ escapeUnit low := by
  by_cases hquote : c = '"'
  · exact Or.inr (Or.inl ⟨'"', by rw [escapeKeyChar, if_pos hquote]⟩)
  by_cases hbackslash : c = '\\'
  · exact Or.inr (Or.inl ⟨'\\', by rw [escapeKeyChar, if_neg hquote, if_pos hbackslash]⟩)
  rw [escapeKeyChar, if_neg hquote, if_neg hbackslash]
  split
  · exact Or.inr (Or.inl ⟨_, rfl⟩)
  split
  · exact Or.inr (Or.inl ⟨_, rfl⟩)
  split
  · exact Or.inr (Or.inl ⟨_, rfl⟩)
  split
  · exact Or.inr (Or.inl ⟨_, rfl⟩)
  split
  · exact Or.inr (Or.inl ⟨_, rfl⟩)
  split
  · exact Or.inl ⟨rfl, hquote, hbackslash⟩
  split
  · exact Or.inr (Or.inr (Or.inl ⟨_, rfl⟩))
  · exact Or.inr (Or.inr (Or.inr ⟨_, _, rfl⟩))

theorem afterValue_escapeKeyChar (c : Char) (depth : Nat) (rest : List Char) :
    afterValue .quoted depth (escapeKeyChar c ++ rest) = afterValue .quoted depth rest := by
  rcases escapeKeyChar_cases c with
    ⟨heq, hquote, hbackslash⟩ | ⟨d, heq⟩ | ⟨unit, heq⟩ | ⟨high, low, heq⟩
  · rw [heq]
    exact afterValue_quoted (List.forall_mem_singleton.mpr ⟨hquote, hbackslash⟩) depth rest
  · rw [heq]
    rfl
  · rw [heq]
    exact afterValue_escapeUnit unit depth rest
  · rw [heq, List.append_assoc, afterValue_escapeUnit, afterValue_escapeUnit]

theorem toList_quoteKey (s : String) :
    (quoteKey s).toList = '"' :: (s.toList.flatMap escapeKeyChar ++ ['"']) :=
  String.toList_ofList

theorem whole_quoteKey (s : String) : Whole (quoteKey s).toList := by
  intro depth rest
  have hchars : ∀ cs : List Char, afterValue .quoted depth (cs.flatMap escapeKeyChar ++ ('"' :: rest)) =
      afterValue .quoted depth ('"' :: rest) := by
    intro cs
    induction cs with
    | nil => rfl
    | cons c cs ih => rw [List.flatMap_cons, List.append_assoc, afterValue_escapeKeyChar, ih]
  calc afterValue .plain depth ((quoteKey s).toList ++ rest)
      = afterValue .quoted depth (s.toList.flatMap escapeKeyChar ++ ('"' :: rest)) := by
        rw [toList_quoteKey, List.cons_append, List.append_assoc]
        rfl
    _ = afterValue .quoted depth ('"' :: rest) := hchars s.toList
    _ = afterValue .plain depth rest := rfl

theorem flatMap_escapeKeyChar {cs : List Char} (h : '\\' ∉ cs.flatMap escapeKeyChar) :
    cs.flatMap escapeKeyChar = cs := by
  induction cs with
  | nil => rfl
  | cons c cs ih =>
    rw [List.flatMap_cons] at h ⊢
    rw [List.mem_append, not_or] at h
    rw [ih h.2]
    rcases escapeKeyChar_cases c with ⟨heq, _⟩ | ⟨d, heq⟩ | ⟨unit, heq⟩ | ⟨high, low, heq⟩
    · rw [heq]
      rfl
    · rw [heq] at h
      exact absurd List.mem_cons_self h.1
    · rw [heq] at h
      exact absurd List.mem_cons_self h.1
    · rw [heq] at h
      exact absurd List.mem_cons_self h.1

/-- A key that is quoted as it is can be told from its text. -/
theorem quoteKey_inj {key s : String} (hkey : '\\' ∉ key.toList.flatMap escapeKeyChar)
    (h : quoteKey s = quoteKey key) : s = key := by
  have htext := congrArg String.toList h
  rw [toList_quoteKey, toList_quoteKey] at htext
  have hchars := List.append_cancel_right (List.cons.inj htext).2
  rw [flatMap_escapeKeyChar (hchars ▸ hkey), flatMap_escapeKeyChar hkey] at hchars
  exact String.toList_injective hchars

/-! ## Lists and objects -/

/-- Texts joined by a comma and a space are scanned without a stop inside of a bracket. -/
theorem inner_intercalate {texts : List String} (h : ∀ text ∈ texts, Inner text.toList) :
    Inner (", ".intercalate texts).toList := by
  rw [String.toList_intercalate]
  induction texts with
  | nil => exact inner_nil
  | cons text texts ih =>
    have htext := h text List.mem_cons_self
    cases texts with
    | nil => simpa using htext
    | cons text' texts =>
      rw [List.map_cons, List.map_cons, List.intercalate_cons_cons, List.append_assoc]
      refine htext.append (Inner.append (fun _ _ => rfl) ?_)
      exact ih fun t ht => h t (List.mem_cons_of_mem _ ht)

/-- An entry of an object's text: a quoted key and the text of its value. -/
def entryText (entry : String × String) : String := quoteKey entry.1 ++ ": " ++ entry.2

theorem toList_entryText (entry : String × String) :
    (entryText entry).toList = (quoteKey entry.1).toList ++ (':' :: ' ' :: entry.2.toList) := by
  rw [entryText, String.toList_append, String.toList_append, List.append_assoc]
  rfl

/-- The entries of an object as they are written, in the order of their keys. -/
def sortedEntries (entries : List (String × Value)) : List (String × String) :=
  (keyEntries entries).mergeSort fun a b => a.1 ≤ b.1

theorem toList_keyText_object (entries : List (String × Value)) :
    (keyText (.object entries)).toList =
      '\x7b' :: ((", ".intercalate ((sortedEntries entries).map entryText)).toList ++ ['\x7d']) := by
  rw [keyText, String.toList_append, String.toList_append]
  rfl

theorem toList_keyText_list (items : List Value) :
    (keyText (.list items)).toList = '[' :: ((", ".intercalate (keyTexts items)).toList ++ [']']) := by
  rw [keyText, String.toList_append, String.toList_append]
  rfl

theorem keyEntries_eq_map (entries : List (String × Value)) :
    keyEntries entries = entries.map fun entry => (entry.1, keyText entry.2) := by
  induction entries with
  | nil => rw [keyEntries, List.map_nil]
  | cons entry entries ih =>
    obtain ⟨key, x⟩ := entry
    rw [keyEntries, ih, List.map_cons]

theorem mem_sortedEntries {entries : List (String × Value)} {entry : String × String} :
    entry ∈ sortedEntries entries ↔ ∃ x ∈ entries, (x.1, keyText x.2) = entry := by
  rw [sortedEntries, List.mem_mergeSort, keyEntries_eq_map, List.mem_map]

/-! ## Scanning values -/

theorem isPlain_of_isNumberChar {c : Char} (h : Double.isNumberChar c = true) : isPlain c = true := by
  have hnot : ∀ d ∈ ['"', '[', ']', '\x7b', '\x7d', ',', ':'], ¬Double.isNumberChar d = true :=
    List.any_eq_false.mp (by decide)
  rw [isPlain, Bool.not_eq_true', Bool.eq_false_iff]
  intro hc
  exact hnot c (List.contains_iff_mem.mp hc) h

theorem isPlain_toString_int {n : Int} : ∀ c ∈ (toString n).toList, isPlain c = true := by
  have hnat : ∀ n : Nat, ∀ c ∈ n.repr.toList, isPlain c = true := by
    intro n c hc
    rw [Nat.toList_repr] at hc
    exact isPlain_of_isNumberChar (Double.isNumberChar_of_isDigit (Double.isDigit_of_mem_toDigits hc))
  cases n with
  | ofNat n => exact hnat n
  | negSucc n =>
    have htext : (toString (Int.negSucc n)).toList = '-' :: n.succ.repr.toList := by
      rw [Int.toString_eq_repr, Int.repr, String.toList_append]
      rfl
    rw [htext]
    exact List.forall_mem_cons.mpr ⟨by decide, hnat _⟩

/-- A closed text is plain where its characters are, looked at one after the other. -/
theorem isPlain_of_all {cs : List Char} (h : cs.all isPlain = true) : ∀ c ∈ cs, isPlain c = true :=
  List.all_eq_true.mp h

theorem isPlain_render {d : Double} : ∀ c ∈ (d.render keyFloats).toList, isPlain c = true := by
  have hsign : ∀ negative, ∀ c ∈ (Double.signText negative).toList, isPlain c = true :=
    fun negative => isPlain_of_all (by cases negative <;> decide)
  rcases Double.render_cases keyFloats d with
    ⟨negative, _, htext⟩ | ⟨negative, _, point, _, hdigits, htext⟩ | ⟨negative, _, hname, htext⟩
  · rw [htext, String.toList_append]
    exact List.forall_mem_append.mpr ⟨hsign negative, isPlain_of_all (by decide)⟩
  · rw [htext, String.toList_append]
    refine List.forall_mem_append.mpr ⟨hsign negative, fun c hc => ?_⟩
    exact isPlain_of_isNumberChar (Double.isNumberChar_of_mem_renderDigits hdigits c hc)
  · rw [htext, String.toList_append]
    refine List.forall_mem_append.mpr ⟨hsign negative, isPlain_of_all ?_⟩
    rcases hname with rfl | rfl
    · decide
    · decide

mutual

/-- The text of a value is scanned as one value. -/
theorem whole_keyText : ∀ v : Value, Whole (keyText v).toList
  | .null => by
    rw [keyText]
    exact whole_of_isPlain (isPlain_of_all (by decide))
  | .bool b => by
    rw [keyText]
    cases b
    · exact whole_of_isPlain (isPlain_of_all (by decide))
    · exact whole_of_isPlain (isPlain_of_all (by decide))
  | .int n => by
    rw [keyText]
    exact whole_of_isPlain isPlain_toString_int
  | .float d => by
    rw [keyText]
    exact whole_of_isPlain isPlain_render
  | .text s => by
    rw [keyText]
    exact whole_quoteKey s
  | .list items => by
    rw [toList_keyText_list]
    exact (inner_intercalate fun text htext => (whole_keyTexts items text htext).inner).bracketed
      (by decide)
  | .object entries => by
    rw [toList_keyText_object]
    refine Inner.bracketed (inner_intercalate fun text htext => ?_) (by decide)
    obtain ⟨entry, hentry, rfl⟩ := List.mem_map.mp htext
    rw [toList_entryText]
    refine (whole_quoteKey entry.1).inner.append ?_
    exact fun depth rest =>
      (whole_keyEntries entries entry (List.mem_mergeSort.mp hentry)) (depth + 1) rest

theorem whole_keyTexts : ∀ (items : List Value), ∀ text ∈ keyTexts items, Whole text.toList
  | [] => nofun
  | x :: xs => by
    rw [keyTexts]
    exact List.forall_mem_cons.mpr ⟨whole_keyText x, whole_keyTexts xs⟩

theorem whole_keyEntries : ∀ (entries : List (String × Value)),
    ∀ entry ∈ keyEntries entries, Whole entry.2.toList
  | [] => nofun
  | (key, x) :: xs => by
    rw [keyEntries]
    exact List.forall_mem_cons.mpr ⟨whole_keyText x, whole_keyEntries xs⟩

end

theorem whole_of_mem_sortedEntries {entries : List (String × Value)} {entry : String × String}
    (h : entry ∈ sortedEntries entries) : Whole entry.2.toList :=
  whole_keyEntries entries entry (List.mem_mergeSort.mp h)

/-! ## Reading the entries of an object back -/

/-- What stands behind an entry in the text of an object: the other entries and the closing bracket. -/
def furtherText : List (String × String) → List Char
  | [] => ['\x7d']
  | entry :: entries => ',' :: ' ' :: ((entryText entry).toList ++ furtherText entries)

theorem toList_intercalate_entries (entry : String × String) (entries : List (String × String)) :
    (", ".intercalate ((entry :: entries).map entryText)).toList ++ ['\x7d'] =
      (entryText entry).toList ++ furtherText entries := by
  have hseparator : ", ".toList = [',', ' '] := rfl
  rw [String.toList_intercalate, hseparator]
  induction entries generalizing entry with
  | nil => simp [furtherText]
  | cons entry' entries ih =>
    rw [List.map_cons, List.map_cons, List.map_cons, List.map_cons, List.intercalate_cons_cons,
      List.append_assoc, List.append_assoc, ← List.map_cons, ← List.map_cons, ih entry', furtherText,
      List.cons_append, List.cons_append, List.nil_append]

theorem stops_furtherText (entries : List (String × String)) : Stops (furtherText entries) := by
  cases entries with
  | nil => rfl
  | cons => rfl

section ReadBack

variable {l l' : List (String × String)}

/-- The first entry of a text and what stands behind it. -/
theorem entryText_append_inj {entry entry' : String × String} (h : Whole entry.2.toList)
    (h' : Whole entry'.2.toList) {rest rest' : List Char} (hrest : Stops rest) (hrest' : Stops rest')
    (heq : (entryText entry).toList ++ rest = (entryText entry').toList ++ rest') :
    quoteKey entry.1 = quoteKey entry'.1 ∧ entry.2 = entry'.2 ∧ rest = rest' := by
  rw [toList_entryText, toList_entryText, List.append_assoc, List.append_assoc] at heq
  have hstops : ∀ cs : List Char, Stops (':' :: cs) := fun _ => rfl
  obtain ⟨hkey, heq⟩ :=
    (whole_quoteKey entry.1).append_inj (whole_quoteKey entry'.1) (hstops _) (hstops _) heq
  have hvalue := (List.cons.inj (List.cons.inj heq).2).2
  obtain ⟨hvalue, heq⟩ := h.append_inj h' hrest hrest' hvalue
  exact ⟨String.toList_injective hkey, String.toList_injective hvalue, heq⟩

/-- The entries of an object with their keys as they are written. -/
def writtenEntries (l : List (String × String)) : List (String × String) :=
  l.map fun entry => (quoteKey entry.1, entry.2)

theorem furtherText_inj (hl : ∀ entry ∈ l, Whole entry.2.toList) (hl' : ∀ entry ∈ l', Whole entry.2.toList)
    (h : furtherText l = furtherText l') : writtenEntries l = writtenEntries l' := by
  -- A comma tells that another entry follows, and what is behind it is read back from its beginning.
  induction l generalizing l' with
  | nil =>
    cases l' with
    | nil => rfl
    | cons => cases (List.cons.inj h).1
  | cons entry l ih =>
    cases l' with
    | nil => cases (List.cons.inj h).1
    | cons entry' l' =>
      have htext := (List.cons.inj (List.cons.inj h).2).2
      obtain ⟨hkey, hvalue, htext⟩ := entryText_append_inj (hl entry List.mem_cons_self)
        (hl' entry' List.mem_cons_self) (stops_furtherText l) (stops_furtherText l') htext
      have hrest := ih (fun e he => hl e (List.mem_cons_of_mem _ he))
        (fun e he => hl' e (List.mem_cons_of_mem _ he)) htext
      rw [writtenEntries, writtenEntries, List.map_cons, List.map_cons, hkey, hvalue]
      exact congrArg _ hrest

/-- The text of an object says what its entries are, up to the way in which keys are written. -/
theorem writtenEntries_inj {entries entries' : List (String × Value)}
    (h : keyText (.object entries) = keyText (.object entries')) :
    writtenEntries (sortedEntries entries) = writtenEntries (sortedEntries entries') := by
  have hentry : ∀ entry : String × String, ∀ rest, (entryText entry).toList ++ rest ≠ ['\x7d'] := by
    intro entry rest heq
    rw [toList_entryText, toList_quoteKey] at heq
    cases (List.cons.inj heq).1
  have hwhole : ∀ entry ∈ sortedEntries entries, Whole entry.2.toList :=
    fun _ => whole_of_mem_sortedEntries
  have hwhole' : ∀ entry ∈ sortedEntries entries', Whole entry.2.toList :=
    fun _ => whole_of_mem_sortedEntries
  have htext := congrArg String.toList h
  rw [toList_keyText_object, toList_keyText_object] at htext
  have hlists := (List.cons.inj htext).2
  -- Only the object without entries is closed at once.
  cases hl : sortedEntries entries with
  | nil =>
    cases hl' : sortedEntries entries' with
    | nil => rfl
    | cons entry l =>
      rw [hl, hl', toList_intercalate_entries] at hlists
      exact absurd hlists.symm (hentry entry _)
  | cons entry l =>
    cases hl' : sortedEntries entries' with
    | nil =>
      rw [hl, hl', toList_intercalate_entries] at hlists
      exact absurd hlists (hentry entry _)
    | cons entry' l' =>
      rw [hl, hl', toList_intercalate_entries, toList_intercalate_entries] at hlists
      refine furtherText_inj (hl ▸ hwhole) (hl' ▸ hwhole') ?_
      rw [furtherText, furtherText, hlists]

end ReadBack

/-! ## Truth -/

/-- Whether a text is that of a value that does not count as true. -/
def isFalsyText (text : String) : Bool :=
  ["null", "false", "\"\"", "[]", "\x7b\x7d"].contains text || text.toList.all ['-', '0', '.'].contains

/-- A text with a character that no falsy text has is not falsy. -/
theorem isFalsyText_of_mem {text : String} {c : Char} (hc : c ∈ text.toList)
    (hnot : ∀ falsy ∈ ["null", "false", "\"\"", "[]", "\x7b\x7d"], c ∉ falsy.toList)
    (hdigit : ['-', '0', '.'].contains c = false) : isFalsyText text = false := by
  rw [isFalsyText, Bool.or_eq_false_iff]
  constructor
  · rw [Bool.eq_false_iff]
    intro htext
    exact hnot text (List.contains_iff_mem.mp htext) hc
  · rw [List.all_eq_false]
    exact ⟨c, hc, Bool.eq_false_iff.mp hdigit⟩

theorem isFalsyText_of_isDigit {text : String} {c : Char} (hc : c ∈ text.toList)
    (hdigit : c.isDigit = true) (hne : c ≠ '0') : isFalsyText text = false := by
  have hchars : ∀ falsy ∈ ["null", "false", "\"\"", "[]", "\x7b\x7d"],
      falsy.toList.any Char.isDigit = false := by decide
  refine isFalsyText_of_mem hc (fun falsy hfalsy hmem => ?_) ?_
  · exact List.any_eq_false.mp (hchars falsy hfalsy) c hmem hdigit
  · rw [Bool.eq_false_iff]
    intro hmem
    rcases List.mem_cons.mp (List.contains_iff_mem.mp hmem) with rfl | hmem
    · cases hdigit
    · rcases List.mem_cons.mp hmem with rfl | hmem
      · exact hne rfl
      · rw [List.mem_singleton.mp hmem] at hdigit
        cases hdigit

theorem isFalsyText_int (n : Int) : isFalsyText (toString n) = decide (n = 0) := by
  have hpos : ∀ k : Nat, k ≠ 0 → ∃ c ∈ k.repr.toList, c.isDigit = true ∧ c ≠ '0' := by
    intro k hk
    rw [Nat.toList_repr]
    obtain ⟨c, hc, hne⟩ := Double.exists_ne_zero_toDigits hk
    exact ⟨c, hc, Double.isDigit_of_mem_toDigits hc, hne⟩
  cases n with
  | ofNat n =>
    cases n with
    | zero => decide
    | succ n =>
      obtain ⟨c, hc, hdigit, hne⟩ := hpos (n + 1) (Nat.succ_ne_zero n)
      have hpositive : Int.ofNat (n + 1) ≠ 0 := nofun
      calc isFalsyText (n + 1).repr = false := isFalsyText_of_isDigit hc hdigit hne
        _ = decide (Int.ofNat (n + 1) = 0) := (decide_eq_false hpositive).symm
  | negSucc n =>
    obtain ⟨c, hc, hdigit, hne⟩ := hpos n.succ (Nat.succ_ne_zero n)
    have hmem : c ∈ (toString (Int.negSucc n)).toList := by
      rw [Int.toString_eq_repr, Int.repr, String.toList_append]
      exact List.mem_append_right _ hc
    rw [isFalsyText_of_isDigit hmem hdigit hne]
    exact (decide_eq_false (by omega)).symm

theorem isFalsyText_float (d : Double) : isFalsyText (d.render keyFloats) = d.isZero := by
  rcases Double.render_cases keyFloats d with
    ⟨negative, hzero, htext⟩ | ⟨negative, hzero, point, ⟨c, hc, hne⟩, hdigits, htext⟩ |
      ⟨negative, hzero, hname, htext⟩
  · rw [htext, hzero]
    cases negative
    · decide
    · decide
  · rw [hzero]
    refine isFalsyText_of_isDigit (c := c) ?_ (hdigits c hc) hne
    rw [htext, String.toList_append]
    exact List.mem_append_right _ (Double.mem_renderDigits hc)
  · rw [hzero, htext]
    rcases hname with rfl | rfl
    · cases negative
      · decide
      · decide
    · cases negative
      · decide
      · decide

theorem render_ne_empty (d : Double) : (d.render keyFloats).toList ≠ [] := by
  rcases Double.render_cases keyFloats d with
    ⟨negative, _, htext⟩ | ⟨negative, _, point, ⟨c, hc, _⟩, _, htext⟩ | ⟨negative, _, hname, htext⟩
  · rw [htext, String.toList_append]
    exact List.append_ne_nil_of_right_ne_nil _ (by decide)
  · rw [htext, String.toList_append]
    exact List.append_ne_nil_of_right_ne_nil _ (List.ne_nil_of_mem (Double.mem_renderDigits hc))
  · rw [htext, String.toList_append]
    refine List.append_ne_nil_of_right_ne_nil _ ?_
    rcases hname with rfl | rfl
    · decide
    · decide

theorem keyText_ne_empty (v : Value) : (keyText v).toList ≠ [] := by
  cases v with
  | null =>
    rw [keyText]
    decide
  | bool b =>
    rw [keyText]
    revert b
    decide
  | int n =>
    rw [keyText]
    cases n with
    | ofNat n => exact fun h => Nat.toDigits_ne_nil (Nat.toList_repr.symm.trans h)
    | negSucc n =>
      rw [Int.toString_eq_repr, Int.repr, String.toList_append]
      exact nofun
  | float d =>
    rw [keyText]
    exact render_ne_empty d
  | text s =>
    rw [keyText, toList_quoteKey]
    exact nofun
  | list items =>
    rw [toList_keyText_list]
    exact nofun
  | object entries =>
    rw [toList_keyText_object]
    exact nofun

theorem escapeKeyChar_ne_nil (c : Char) : escapeKeyChar c ≠ [] := by
  rcases escapeKeyChar_cases c with ⟨heq, _⟩ | ⟨d, heq⟩ | ⟨unit, heq⟩ | ⟨high, low, heq⟩
  all_goals
    rw [heq]
    exact nofun

/-- A text between quotes or brackets is falsy if there is nothing in between. -/
theorem isFalsyText_bracketed {opening closing : Char} {inner : List Char} {text : String}
    (hpair : (opening, closing) ∈ [('"', '"'), ('[', ']'), ('\x7b', '\x7d')])
    (htext : text.toList = opening :: (inner ++ [closing])) : isFalsyText text = inner.isEmpty := by
  have hshort : ∀ falsy ∈ ["null", "false", "\"\"", "[]", "\x7b\x7d"], falsy.toList.length = 2 ∨
      ∀ pair ∈ [('"', '"'), ('[', ']'), ('\x7b', '\x7d')], falsy.toList.head? ≠ some pair.1 := by
    decide
  have hopening : ∀ pair ∈ [('"', '"'), ('[', ']'), ('\x7b', '\x7d')],
      ['-', '0', '.'].contains pair.1 = false := by decide
  rw [Bool.eq_iff_iff, List.isEmpty_iff]
  constructor
  · intro h
    rw [isFalsyText, Bool.or_eq_true] at h
    rcases h with h | h
    · rcases hshort text (List.contains_iff_mem.mp h) with hlength | hhead
      · rw [htext, List.length_cons, List.length_append, List.length_singleton] at hlength
        exact List.eq_nil_of_length_eq_zero (by omega)
      · rw [htext] at hhead
        exact absurd rfl (hhead _ hpair)
    · rw [htext, List.all_cons, hopening _ hpair, Bool.false_and] at h
      cases h
  · rintro rfl
    rw [isFalsyText, Bool.or_eq_true]
    left
    have hcases : ∀ pair ∈ [('"', '"'), ('[', ']'), ('\x7b', '\x7d')],
        ["null", "false", "\"\"", "[]", "\x7b\x7d"].contains (String.ofList [pair.1, pair.2]) = true := by
      decide
    rw [← String.ofList_toList (s := text), htext]
    exact hcases _ hpair

theorem isFalsyText_quoteKey (s : String) : isFalsyText (quoteKey s) = s.isEmpty := by
  rw [isFalsyText_bracketed (by decide) (toList_quoteKey s), Bool.eq_iff_iff, List.isEmpty_iff,
    String.isEmpty_iff, List.flatMap_eq_nil_iff]
  constructor
  · intro h
    cases hs : s.toList with
    | nil => exact String.toList_injective hs
    | cons c cs => exact absurd (h c (hs ▸ List.mem_cons_self)) (escapeKeyChar_ne_nil c)
  · rintro rfl
    exact nofun

/-- Joined texts are empty only if there is no text, as no text is empty. -/
theorem isEmpty_intercalate {texts : List String} (h : ∀ text ∈ texts, text.toList ≠ []) :
    (", ".intercalate texts).toList.isEmpty = texts.isEmpty := by
  rw [String.toList_intercalate]
  cases texts with
  | nil => rfl
  | cons text texts =>
    have htext := h text List.mem_cons_self
    rw [List.isEmpty_cons, List.isEmpty_eq_false_iff]
    cases texts with
    | nil => simpa using htext
    | cons text' texts =>
      rw [List.map_cons, List.map_cons, List.intercalate_cons_cons, List.append_assoc]
      exact List.append_ne_nil_of_left_ne_nil htext _

theorem keyTexts_eq_map (items : List Value) : keyTexts items = items.map keyText := by
  induction items with
  | nil => rw [keyTexts, List.map_nil]
  | cons x xs ih => rw [keyTexts, ih, List.map_cons]

theorem isFalsyText_list (items : List Value) : isFalsyText (keyText (.list items)) = items.isEmpty := by
  rw [isFalsyText_bracketed (by decide) (toList_keyText_list items), keyTexts_eq_map, isEmpty_intercalate,
    List.isEmpty_map]
  rintro text htext
  obtain ⟨x, _, rfl⟩ := List.mem_map.mp htext
  exact keyText_ne_empty x

theorem isFalsyText_object (entries : List (String × Value)) :
    isFalsyText (keyText (.object entries)) = entries.isEmpty := by
  have hempty : (sortedEntries entries).isEmpty = entries.isEmpty := by
    rw [sortedEntries, (List.mergeSort_perm _ _).isEmpty_eq, keyEntries_eq_map, List.isEmpty_map]
  rw [isFalsyText_bracketed (by decide) (toList_keyText_object entries), isEmpty_intercalate,
    List.isEmpty_map, hempty]
  rintro text htext
  obtain ⟨entry, _, rfl⟩ := List.mem_map.mp htext
  rw [toList_entryText, toList_quoteKey]
  exact nofun

/-- Whether a value counts as true can be seen in its text. -/
theorem isTruthy_eq (v : Value) : v.isTruthy = !isFalsyText (keyText v) := by
  cases v with
  | null =>
    rw [keyText]
    decide
  | bool b =>
    rw [keyText]
    revert b
    decide
  | int n =>
    rw [keyText, isFalsyText_int, isTruthy, decide_not]
  | float d => rw [keyText, isFalsyText_float, isTruthy]
  | text s => rw [keyText, isFalsyText_quoteKey, isTruthy]
  | list items => rw [isFalsyText_list, isTruthy]
  | object entries => rw [isFalsyText_object, isTruthy]

/-! ## Entries by their keys -/

/-- Whether an object has something true under a key that is written as it is can be seen in its text. -/
theorem any_lookup_iff {entries : List (String × Value)} (h : (entries.map Prod.fst).Nodup)
    {key : String} (hkey : '\\' ∉ key.toList.flatMap escapeKeyChar) :
    (entries.lookup key).any isTruthy = true ↔
      ∃ entry ∈ writtenEntries (sortedEntries entries),
        entry.1 = quoteKey key ∧ isFalsyText entry.2 = false := by
  rw [Option.any_eq_true]
  constructor
  · rintro ⟨x, hx, htrue⟩
    refine ⟨(quoteKey key, keyText x), ?_, rfl, ?_⟩
    · exact List.mem_map.mpr ⟨(key, keyText x),
        mem_sortedEntries.mpr ⟨(key, x), (FieldMap.lookup_eq_some_iff h).mp hx, rfl⟩, rfl⟩
    · rw [isTruthy_eq, Bool.not_eq_true'] at htrue
      exact htrue
  · rintro ⟨_, hmem, hquote, hfalsy⟩
    obtain ⟨_, hsorted, rfl⟩ := List.mem_map.mp hmem
    obtain ⟨⟨key', x⟩, hentry, rfl⟩ := mem_sortedEntries.mp hsorted
    obtain rfl : key' = key := quoteKey_inj hkey hquote
    refine ⟨x, (FieldMap.lookup_eq_some_iff h).mpr hentry, ?_⟩
    rw [isTruthy_eq, hfalsy]
    rfl

end OpenCrud.Value

namespace OpenCrud.Generate.Args

/-! ## Arguments -/

/-- The arguments that an object with these entries gives. -/
def OfObject (a : Args) : Prop :=
  ∃ entries : List (String × Value), (entries.map Prod.fst).Nodup ∧ a = .ofEntries entries

/-- Arguments that objects give are determined by their texts. -/
theorem OfObject.eq_of_text {a b : Args} (ha : a.OfObject) (hb : b.OfObject) (h : a.text = b.text) :
    a = b := by
  obtain ⟨entries, hnodup, rfl⟩ := ha
  obtain ⟨entries', hnodup', rfl⟩ := hb
  have hwritten := Value.writtenEntries_inj h
  have hflag : ∀ key : String, '\\' ∉ key.toList.flatMap Value.escapeKeyChar →
      (entries.lookup key).any Value.isTruthy = (entries'.lookup key).any Value.isTruthy := by
    intro key hkey
    rw [Bool.eq_iff_iff, Value.any_lookup_iff hnodup hkey, Value.any_lookup_iff hnodup' hkey, hwritten]
  rw [ofEntries, ofEntries, Args.mk.injEq]
  exact ⟨h, hflag "nested" (by decide), hflag "required" (by decide)⟩

end OpenCrud.Generate.Args
