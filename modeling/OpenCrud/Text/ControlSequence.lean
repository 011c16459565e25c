/-!
# Control sequences

A text can carry orders for the terminal that shows it, such as to change a colour. A control sequence is an
escape character and a bracket, then any parameters, then any intermediate characters, then one final
character; each of the three has its own part of ASCII. An escape character that starts no whole sequence is a
character like any other.

What comes to light only when a sequence has been dropped is not looked at again.
-/

namespace OpenCrud.Text

/-- The character that a control sequence starts with. -/
def escapeChar : Char := '\x1b'

/-- Whether a character is a parameter of a control sequence: a digit, or one of six signs. -/
def isParameter (c : Char) : Bool := 0x30 ≤ c.toNat && c.toNat ≤ 0x3f

/-- Whether a character can stand between the parameters and the final character: a blank or a sign. -/
def isIntermediate (c : Char) : Bool := 0x20 ≤ c.toNat && c.toNat ≤ 0x2f

/-- Whether a character can end a control sequence: a letter or a sign from the upper half of ASCII. -/
def isFinal (c : Char) : Bool := 0x40 ≤ c.toNat && c.toNat ≤ 0x7e

/-- What follows a control sequence whose escape character has been read. -/
def afterSequence? : List Char → Option (List Char)
  | '[' :: cs =>
    match (cs.dropWhile isParameter).dropWhile isIntermediate with
    | c :: rest => if isFinal c then some rest else none
    | [] => none
  | _ => none

/-- A control sequence takes characters away. -/
theorem length_afterSequence? {cs rest : List Char} (h : afterSequence? cs = some rest) :
    rest.length < cs.length := by
  unfold afterSequence? at h
  split at h
  · rename_i cs
    have hle := ((List.dropWhile_sublist isIntermediate).trans
      (List.dropWhile_sublist isParameter (l := cs))).length_le
    split at h
    · rename_i hdrop
      rw [hdrop] at hle
      simp only [Option.ite_none_right_eq_some, Option.some.injEq] at h
      obtain ⟨_, rfl⟩ := h
      simp only [List.length_cons] at hle ⊢
      omega
    · simp at h
  · simp at h

/-- What a text has before its first escape character. -/
def beforeEscape (cs : List Char) : List Char := cs.takeWhile (· ≠ escapeChar)

/-- What a text has from its first escape character on. -/
def fromEscape (cs : List Char) : List Char := cs.dropWhile (· ≠ escapeChar)

/-- Cutting a text at its first escape character loses nothing. -/
theorem beforeEscape_append_fromEscape (cs : List Char) : beforeEscape cs ++ fromEscape cs = cs :=
  List.takeWhile_append_dropWhile

/-- What a text has from its first escape character on starts with an escape character. -/
theorem eq_escapeChar_of_fromEscape {cs rest : List Char} {c : Char}
    (h : fromEscape cs = c :: rest) : c = escapeChar := by
  have hhead := List.head?_dropWhile_not (fun c => decide (c ≠ escapeChar)) cs
  rw [fromEscape] at h
  rw [h] at hhead
  simpa using hhead

/-- What follows the first escape character of a text is shorter than the text. -/
theorem length_of_fromEscape {cs rest : List Char} {c : Char} (h : fromEscape cs = c :: rest) :
    rest.length < cs.length := by
  have hcs := congrArg List.length (beforeEscape_append_fromEscape cs)
  simp only [h, List.length_append, List.length_cons] at hcs
  omega

/-- The characters of a text that are in no control sequence. -/
def dropSequences (cs : List Char) : List Char :=
  match h : fromEscape cs with
  | [] => cs
  | c :: rest =>
    have := length_of_fromEscape h
    beforeEscape cs ++
      match hrest : afterSequence? rest with
      | some after =>
        have := length_afterSequence? hrest
        dropSequences after
      | none => c :: dropSequences rest
termination_by cs.length

/-- A text as it looks on anything but a terminal. -/
def plain (s : String) : String := String.ofList (dropSequences s.toList)

/-- A text without an escape character is left as it is. -/
theorem dropSequences_of_not_mem {cs : List Char} (h : escapeChar ∉ cs) : dropSequences cs = cs := by
  unfold dropSequences
  split
  · rfl
  · rename_i c rest hcs
    have hmem : c ∈ cs := by
      rw [← beforeEscape_append_fromEscape cs, hcs]
      simp
    exact absurd (eq_escapeChar_of_fromEscape hcs ▸ hmem) h

end OpenCrud.Text
