import OpenCrud.Client.Declaration
import OpenCrud.Proofs.Client.TemplateLiteral
import OpenCrud.Proofs.Generate.Assembled

/-!
# Descriptions as block comments

How ECMAScript reads a block comment (`afterBlockComment?`): it ends at the first star with a slash behind it.
Main result: the comments of the bindings end where they are meant to exactly for the descriptions without a star
before a slash (`blockComments_iff`). Nothing else does harm: no end arises between two lines, behind the star that
stands in front of a line, or at the end of the last line.

A description with a star before a slash is not changed on its way into the bindings, so that the rest of it is read
as code (`outside_comment_of_description`). Backticks are changed where a text stands between backticks.
-/

namespace OpenCrud.Client

open Datamodel Generate

/-! ## Reading block comments -/

/-- What is left of a text behind the first end of a comment in it. -/
def afterCommentEnd? : List Char → Option (List Char)
  | [] => none
  | c :: cs => if c = '*' ∧ cs.head? = some '/' then some cs.tail else afterCommentEnd? cs

/-- What is left of a text behind the block comment that it begins with. -/
def afterBlockComment? : List Char → Option (List Char)
  | '/' :: '*' :: cs => afterCommentEnd? cs
  | _ => none

/-- That a text is one block comment and a line feed. -/
def IsCommentLine (text : String) : Prop := afterBlockComment? text.toList = some ['\n']

/-- That a text has a star before a slash. -/
def HasCommentEnd (text : List Char) : Prop := ['*', '/'] <:+: text

instance (text : List Char) : Decidable (HasCommentEnd text) :=
  inferInstanceAs (Decidable (['*', '/'] <:+: text))

theorem not_hasCommentEnd_nil : ¬HasCommentEnd [] := by simp [HasCommentEnd]

theorem hasCommentEnd_cons_iff {c : Char} {text : List Char} :
    HasCommentEnd (c :: text) ↔ (c = '*' ∧ text.head? = some '/') ∨ HasCommentEnd text :=
  pair_infix_cons_iff

/-- A character that is no star begins no end of a comment. -/
theorem hasCommentEnd_cons_of_ne {c : Char} (hc : c ≠ '*') {text : List Char} :
    HasCommentEnd (c :: text) ↔ HasCommentEnd text := by
  rw [hasCommentEnd_cons_iff]
  exact or_iff_right fun h => hc h.1

theorem head?_append_cons_iff {c d : Char} (hne : c ≠ d) (before behind : List Char) :
    (before ++ c :: behind).head? = some d ↔ before.head? = some d := by
  cases before with
  | nil => simp [hne]
  | cons e rest => rfl

/-- A character that is neither a star nor a slash keeps what is before it from what is behind it. -/
theorem hasCommentEnd_append_cons_iff {c : Char} (hstar : c ≠ '*') (hslash : c ≠ '/') (before behind : List Char) :
    HasCommentEnd (before ++ c :: behind) ↔ HasCommentEnd before ∨ HasCommentEnd behind := by
  induction before with
  | nil => simp [hasCommentEnd_cons_of_ne hstar, not_hasCommentEnd_nil]
  | cons d before ih =>
    rw [List.cons_append, hasCommentEnd_cons_iff, hasCommentEnd_cons_iff, ih, head?_append_cons_iff hslash, or_assoc]

/-- A comment ends behind a text that stands in it exactly where the text has no end of its own. -/
theorem afterCommentEnd?_append_iff (text rest : List Char) :
    afterCommentEnd? (text ++ '*' :: '/' :: rest) = some rest ↔ ¬HasCommentEnd text := by
  induction text with
  | nil => exact ⟨fun _ => not_hasCommentEnd_nil, fun _ => rfl⟩
  | cons c text ih =>
    have hhead : (text ++ '*' :: '/' :: rest).head? = some '/' ↔ text.head? = some '/' :=
      head?_append_cons_iff (by decide) _ _
    rw [List.cons_append, afterCommentEnd?, hasCommentEnd_cons_iff]
    by_cases hend : c = '*' ∧ text.head? = some '/'
    · -- The comment ends here, and what is left is longer than what stands behind the text.
      obtain ⟨later, rfl⟩ := List.head?_eq_some_iff.mp hend.2
      rw [if_pos ⟨hend.1, hhead.mpr hend.2⟩, List.cons_append, List.tail_cons]
      refine ⟨fun h => ?_, fun h => absurd (Or.inl hend) h⟩
      have hlength := congrArg List.length (Option.some.inj h)
      simp only [List.length_append, List.length_cons] at hlength
      omega
    · rw [if_neg fun h => hend ⟨h.1, hhead.mp h.2⟩, ih, or_iff_right hend]

/-! ## Lines -/

theorem head?_splitLines {c : Char} (hc : c ≠ '\n') {text line : List Char} {rest : List (List Char)}
    (h : Text.splitLines text = line :: rest) : line.head? = some c ↔ text.head? = some c := by
  cases text with
  | nil =>
    cases h
    rfl
  | cons d text =>
    rw [Text.splitLines] at h
    split at h
    · rename_i hd
      cases h
      simp [hd, Ne.symm hc]
    · split at h <;> cases h <;> rfl

/-- A line feed is no part of an end of a comment. -/
theorem hasCommentEnd_iff_exists_line (text : List Char) :
    HasCommentEnd text ↔ ∃ line ∈ Text.splitLines text, HasCommentEnd line := by
  induction text with
  | nil => simp [Text.splitLines]
  | cons c text ih =>
    rw [Text.splitLines]
    split
    · rename_i hc
      subst hc
      rw [hasCommentEnd_cons_of_ne (by decide), ih, List.exists_mem_cons_iff,
        or_iff_right not_hasCommentEnd_nil]
    · obtain ⟨line, rest, hlines⟩ := List.exists_cons_of_ne_nil (Text.splitLines_ne_nil text)
      rw [hlines] at ih ⊢
      rw [List.exists_mem_cons_iff, hasCommentEnd_cons_iff, hasCommentEnd_cons_iff, ih,
        List.exists_mem_cons_iff, head?_splitLines (by decide) hlines, or_assoc]

/-- A line of a comment with a star in front of it. -/
def starredLine (line : List Char) : List Char := ' ' :: '*' :: ' ' :: line ++ ['\n']

/-- The star in front of a line ends no comment. -/
theorem hasCommentEnd_starredLines_iff (lines : List (List Char)) :
    HasCommentEnd (lines.flatMap starredLine) ↔ ∃ line ∈ lines, HasCommentEnd line := by
  induction lines with
  | nil => simp [not_hasCommentEnd_nil]
  | cons line lines ih =>
    have htext : (line :: lines).flatMap starredLine =
        ' ' :: '*' :: (' ' :: (line ++ '\n' :: lines.flatMap starredLine)) := by
      simp [starredLine]
    rw [htext, hasCommentEnd_cons_of_ne (by decide), hasCommentEnd_cons_iff,
      or_iff_right (by simp), hasCommentEnd_cons_of_ne (by decide),
      hasCommentEnd_append_cons_iff (by decide) (by decide), ih, List.exists_mem_cons_iff]

/-! ## Comments -/

theorem toList_starredComment (description : String) : (starredComment description).toList =
    '/' :: '*' :: ('\n' :: ((Text.splitLines description.toList).flatMap starredLine ++ ' ' :: []))
      ++ '*' :: '/' :: ['\n'] := by
  have hline : starredLine = fun line => ' ' :: '*' :: ' ' :: (line ++ ['\n']) := rfl
  simp [starredComment, hline, String.toList_join, List.flatMap_map]

theorem toList_plainComment (description : String) : (plainComment description).toList =
    '/' :: '*' :: ('\n' :: (description.toList ++ '\n' :: [])) ++ '*' :: '/' :: ['\n'] := by
  simp [plainComment]

/-- A comment with a star in front of every line ends where it is meant to for the descriptions without an end. -/
theorem afterBlockComment?_starredComment_iff (description more : String) :
    afterBlockComment? (starredComment description ++ more).toList = some ('\n' :: more.toList) ↔
      ¬HasCommentEnd description.toList := by
  rw [String.toList_append, toList_starredComment, List.append_assoc]
  show afterCommentEnd? (_ ++ '*' :: '/' :: '\n' :: more.toList) = _ ↔ _
  rw [afterCommentEnd?_append_iff, hasCommentEnd_cons_of_ne (by decide),
    hasCommentEnd_append_cons_iff (by decide) (by decide), or_iff_left not_hasCommentEnd_nil,
    hasCommentEnd_starredLines_iff, ← hasCommentEnd_iff_exists_line]

/-- A comment with the description as it is does so as well. -/
theorem afterBlockComment?_plainComment_iff (description more : String) :
    afterBlockComment? (plainComment description ++ more).toList = some ('\n' :: more.toList) ↔
      ¬HasCommentEnd description.toList := by
  rw [String.toList_append, toList_plainComment, List.append_assoc]
  show afterCommentEnd? (_ ++ '*' :: '/' :: '\n' :: more.toList) = _ ↔ _
  rw [afterCommentEnd?_append_iff, hasCommentEnd_cons_of_ne (by decide),
    hasCommentEnd_append_cons_iff (by decide) (by decide), or_iff_left not_hasCommentEnd_nil]

theorem commentOf_some {description : String} (hne : description ≠ "") (render : String → String) :
    commentOf render (some description) = render description := by
  rw [commentOf, if_neg (by simpa using hne)]

/-! ## Declarations -/

/-- The comment that the declarations of a type begin with. -/
def declaredComment (t : NamedType String) : String :=
  match t.body with
  | .scalar _ => comment t.description
  | _ => describe t.description

theorem exists_render_eq (d : InterfaceDecl) : ∃ text, d.render = describe d.description ++ text := by
  unfold InterfaceDecl.render
  simp only [String.append_assoc]
  exact ⟨_, rfl⟩

theorem exists_declareScalar_eq (language : Language) (t : NamedType String) :
    ∃ text, declareScalar language t = comment t.description ++ text := by
  unfold declareScalar
  simp only [String.append_assoc]
  split
  · exact ⟨_, rfl⟩
  · exact ⟨_, rfl⟩

theorem exists_declareEnum_eq (t : NamedType String) (values : List String) :
    ∃ text, declareEnum t values = describe t.description ++ text := by
  unfold declareEnum
  simp only [String.append_assoc]
  exact ⟨_, rfl⟩

/-- A type is declared behind its comment, an object twice. -/
theorem exists_declare_eq (language : Language) (s : Schema) (t : NamedType String) : ∃ parts, parts ≠ [] ∧
    declare language s t = "\n\n".intercalate (parts.map (declaredComment t ++ ·)) := by
  have hone : ∀ {text : String}, (∃ part, text = declaredComment t ++ part) → ∃ parts, parts ≠ [] ∧
      text = "\n\n".intercalate (parts.map (declaredComment t ++ ·)) :=
    fun ⟨part, hpart⟩ => ⟨[part], List.cons_ne_nil _ _, hpart⟩
  obtain ⟨name, description, body⟩ := t
  cases body with
  | scalar => exact hone (exists_declareScalar_eq language _)
  | enum values => exact hone (exists_declareEnum_eq _ values.keys)
  | object =>
    obtain ⟨node, hnode⟩ := exists_render_eq (interfaceOf s true ⟨name, description, .object _ _⟩)
    obtain ⟨promise, hpromise⟩ := exists_render_eq (interfaceOf s false ⟨name, description, .object _ _⟩)
    refine ⟨[node, promise], List.cons_ne_nil _ _, ?_⟩
    show (interfaceOf s true _).render ++ "\n\n" ++ (interfaceOf s false _).render = _
    rw [hnode, hpromise]
    rfl
  | interface => exact hone (exists_render_eq (interfaceOf s true _))
  | union members => exact hone ⟨_, rfl⟩
  | inputObject fields => exact hone (exists_render_eq (inputInterface _ fields))

/-! ## Main result -/

/-- A description is one comment, and what is declared behind it is no part of that, exactly where it has no end of a
comment of its own. -/
theorem blockComments_iff {description : String} (hne : description ≠ "") :
    (IsCommentLine (describe (some description)) ↔ ¬HasCommentEnd description.toList) ∧
    (IsCommentLine (comment (some description)) ↔ ¬HasCommentEnd description.toList) ∧
    ∀ language s (t : NamedType String), t.description = some description →
      ∃ parts, parts ≠ [] ∧ declare language s t = "\n\n".intercalate (parts.map (declaredComment t ++ ·)) ∧
        ∀ part ∈ parts, afterBlockComment? (declaredComment t ++ part).toList = some ('\n' :: part.toList) ↔
          ¬HasCommentEnd description.toList := by
  have hdescribe : describe (some description) = starredComment description := commentOf_some hne _
  have hcomment : comment (some description) = plainComment description := commentOf_some hne _
  refine ⟨?_, ?_, fun language s t ht => ?_⟩
  · rw [IsCommentLine, hdescribe, ← afterBlockComment?_starredComment_iff description "", String.append_empty]
    rfl
  · rw [IsCommentLine, hcomment, ← afterBlockComment?_plainComment_iff description "", String.append_empty]
    rfl
  · obtain ⟨parts, hparts, hdeclare⟩ := exists_declare_eq language s t
    refine ⟨parts, hparts, hdeclare, fun part _ => ?_⟩
    unfold declaredComment
    rw [ht]
    split
    · rw [hcomment]
      exact afterBlockComment?_plainComment_iff description part
    · rw [hdescribe]
      exact afterBlockComment?_starredComment_iff description part

theorem blockComments_narrows : IsCommentLine (describe (some "Narrows\n/results*")) ∧
    IsCommentLine (comment (some "Narrows\n/results*")) := by
  have hend : ¬HasCommentEnd "Narrows\n/results*".toList := by decide
  obtain ⟨hdescribe, hcomment, _⟩ := @blockComments_iff "Narrows\n/results*" (by decide)
  exact ⟨hdescribe.mpr hend, hcomment.mpr hend⟩

/-- A datamodel whose description has an end of a comment. -/
def closingSource : List Char := "\"\"\"one */ two\"\"\" type A { a: Int }".toList

/-- The rest of such a description is left outside of the comment. -/
theorem outside_comment_of_description : ∃ types s, parse .relational closingSource = .ok types ∧
    schema (.ofTypes types) = .ok s ∧ ∃ t ∈ declaredTypes s, t.description = some "one */ two" ∧
      declaredComment t = describe t.description ∧
      afterBlockComment? (describe (some "one */ two")).toList = some " two\n */\n".toList ∧
      afterBlockComment? (comment (some "one */ two")).toList = some " two\n*/\n".toList := by
  obtain ⟨types, s, h, hs, hany⟩ : ∃ types s, parse .relational closingSource = .ok types ∧
      schema (.ofTypes types) = .ok s ∧ (declaredTypes s).any (fun t =>
        t.description = some "one */ two" && declaredComment t = describe t.description) = true :=
    exists_schema_of_any (by decide +kernel)
  obtain ⟨t, ht, hp⟩ := List.any_eq_true.mp hany
  rw [Bool.and_eq_true, decide_eq_true_iff, decide_eq_true_iff] at hp
  exact ⟨types, s, h, hs, t, ht, hp.1, hp.2, by decide +kernel, by decide +kernel⟩

end OpenCrud.Client
