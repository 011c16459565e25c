import OpenCrud.Proofs.Client.TemplateLiteral
import OpenCrud.Proofs.Generate.Yields
import OpenCrud.Proofs.Naming
import OpenCrud.Proofs.Schema.Described
import OpenCrud.Schema.Print

/-!
# Printed schemas between backticks

What of a printed schema is read as something else between backticks. All of it but the descriptions is names and
punctuation, so it is a matter of the descriptions (`shows_print`): a description is read as it is when it
has nothing that means something else, and when it is printed without a backslash (`ShownAsIs`).
-/

namespace OpenCrud.Client

open Description

/-! ## Texts in a row -/

/-- Where two texts meet, only a dollar sign before a brace could come about that was in neither of them. -/
theorem readsAsIs_append_iff {a b : List Char} (h : a.getLast? ≠ some '$') :
    ReadsAsIs (a ++ b) ↔ ReadsAsIs a ∧ ReadsAsIs b := by
  induction a with
  | nil => simp [readsAsIs_nil]
  | cons c a ih =>
    cases a with
    | nil =>
      have hc : c ≠ '$' := by simpa using h
      simp [readsAsIs_cons_iff, readsAsIs_nil, hc]
    | cons d a =>
      rw [List.getLast?_cons_cons] at h
      rw [List.cons_append, readsAsIs_cons_iff, readsAsIs_cons_iff, ih h]
      exact and_assoc.symm

/-- A character that means nothing else wherever it stands. -/
def isPlain (c : Char) : Bool := c != '\\' && c != '\r' && c != '$'

theorem readsAsIs_of_plain {a : List Char} (h : a.all isPlain = true) : ReadsAsIs a := by
  induction a with
  | nil => exact readsAsIs_nil
  | cons c a ih =>
    simp only [List.all_cons, isPlain, Bool.and_eq_true, bne_iff_ne] at h
    exact readsAsIs_cons_iff.mpr ⟨⟨h.1.1.1, h.1.1.2, fun hc => h.1.2 hc.1⟩, ih h.2⟩

theorem getLast?_ne_of_plain {a : List Char} (h : a.all isPlain = true) : a.getLast? ≠ some '$' := by
  intro hlast
  have hmem := List.all_eq_true.mp h _ (List.mem_of_getLast? hlast)
  exact absurd hmem (by decide)

/-- A text that reads as it is on a condition, and that does not end in a dollar sign. -/
structure Shows (p : Prop) (text : String) : Prop where
  closed : text.toList.getLast? ≠ some '$'
  reads : ReadsAsIs text.toList ↔ p

section Shows

variable {p q : Prop} {a b : String}

theorem Shows.congr (h : Shows p a) (hpq : p ↔ q) : Shows q a := ⟨h.closed, h.reads.trans hpq⟩

/-- What two texts show together is what each of them shows, since the first cannot end with a dollar. -/
theorem Shows.append (ha : Shows p a) (hb : Shows q b) : Shows (p ∧ q) (a ++ b) where
  closed := by
    rw [String.toList_append, List.getLast?_append]
    cases hlast : b.toList.getLast? with
    | none => exact ha.closed
    | some c =>
      have hclosed := hb.closed
      rw [hlast] at hclosed
      exact hclosed
  reads := by
    rw [String.toList_append, readsAsIs_append_iff ha.closed, ha.reads, hb.reads]

/-- A text of plain characters shows what it is, without any condition. -/
theorem shows_plain (h : a.toList.all isPlain = true) : Shows True a where
  closed := getLast?_ne_of_plain h
  reads := iff_true_intro (readsAsIs_of_plain h)

theorem Shows.append_plain (ha : Shows p a) (hb : b.toList.all isPlain = true) : Shows p (a ++ b) :=
  (ha.append (shows_plain hb)).congr (and_iff_left trivial)

theorem Shows.plain_append (ha : a.toList.all isPlain = true) (hb : Shows q b) : Shows q (a ++ b) :=
  ((shows_plain ha).append hb).congr (and_iff_right trivial)

/-- Plain separators keep the texts apart from each other. -/
theorem shows_intercalate {sep : String} (hsep : sep.toList.all isPlain = true) {l : List String}
    (h : ∀ text ∈ l, text.toList.getLast? ≠ some '$') :
    Shows (∀ text ∈ l, ReadsAsIs text.toList) (sep.intercalate l) := by
  induction l with
  | nil =>
    rw [String.intercalate_nil]
    exact (shows_plain rfl).congr (by simp)
  | cons text l ih =>
    have hfirst : Shows (ReadsAsIs text.toList) text := ⟨h text List.mem_cons_self, Iff.rfl⟩
    have hrest := ih fun text htext => h text (List.mem_cons_of_mem _ htext)
    cases l with
    | nil =>
      rw [String.intercalate_singleton]
      exact hfirst.congr (by simp)
    | cons next l =>
      rw [String.intercalate_cons_cons]
      exact ((hfirst.append_plain hsep).append hrest).congr
        (List.forall_mem_cons (p := fun text : String => ReadsAsIs text.toList)).symm

theorem shows_intercalate_map {sep : String} (hsep : sep.toList.all isPlain = true) {α : Type} {l : List α}
    {f : α → String} {p : α → Prop} (h : ∀ x ∈ l, Shows (p x) (f x)) :
    Shows (∀ x ∈ l, p x) (sep.intercalate (l.map f)) := by
  have hclosed : ∀ text ∈ l.map f, text.toList.getLast? ≠ some '$' := by
    intro text htext
    obtain ⟨x, hx, rfl⟩ := List.mem_map.mp htext
    exact (h x hx).closed
  refine (shows_intercalate hsep hclosed).congr ?_
  rw [List.forall_mem_map]
  exact forall₂_congr fun x hx => (h x hx).reads

end Shows

/-! ## Descriptions -/

/-- That a description is read as it is between backticks: nothing in it means something else there, and none
of its characters is printed with a backslash. -/
def ShownAsIs (text : String) : Prop :=
  ReadsAsIs text.toList ∧
    if fitsBlock text.toList then ¬['"', '"', '"'] <:+: text.toList
    else ∀ c ∈ text.toList, escapeChar c = [c]

instance (text : String) : Decidable (ShownAsIs text) := inferInstanceAs (Decidable (_ ∧ _))

/-- Escaping quotation marks puts no brace at the start. -/
theorem head?_escapeQuotes (text : List Char) :
    (escapeQuotes text).head? = some '{' ↔ text.head? = some '{' := by
  unfold escapeQuotes
  split <;> simp

/-- Three quotes get a backslash, and all other characters stay as they are. -/
theorem readsAsIs_escapeQuotes_iff (text : List Char) :
    ReadsAsIs (escapeQuotes text) ↔ ReadsAsIs text ∧ ¬['"', '"', '"'] <:+: text := by
  fun_induction escapeQuotes text with
  | case1 cs ih =>
    refine ⟨fun h => absurd List.mem_cons_self h.no_backslash, fun h => absurd ?_ h.2⟩
    exact (List.prefix_append ['"', '"', '"'] cs).isInfix
  | case2 c cs hquotes ih =>
    have hprefix : ¬['"', '"', '"'] <+: c :: cs := by
      rintro ⟨rest, hrest⟩
      injection hrest with hc hcs
      exact hquotes rest hc.symm hcs.symm
    rw [readsAsIs_cons_iff, readsAsIs_cons_iff, ih, List.infix_cons_iff, not_or, head?_escapeQuotes]
    tauto
  | case3 => simp [readsAsIs_nil]

/-- Where characters stay as they are or get a backslash, the text reads as it is if none gets one. -/
theorem readsAsIs_flatMap_iff {escape : Char → List Char}
    (hescape : ∀ c, escape c = [c] ∨ ∃ rest, escape c = '\\' :: rest) (hbrace : escape '{' = ['{'])
    (text : List Char) :
    ReadsAsIs (text.flatMap escape) ↔ ReadsAsIs text ∧ ∀ c ∈ text, escape c = [c] := by
  induction text with
  | nil => simp [readsAsIs_nil]
  | cons c text ih =>
    rw [List.flatMap_cons, List.forall_mem_cons]
    rcases hescape c with hc | ⟨rest, hc⟩
    · have hhead : (text.flatMap escape).head? = some '{' ↔ text.head? = some '{' := by
        cases text with
        | nil => rfl
        | cons d text =>
          rw [List.flatMap_cons, List.head?_cons]
          rcases hescape d with hd | ⟨rest, hd⟩
          · simp [hd]
          · have hne : d ≠ '{' := by
              rintro rfl
              rw [hbrace] at hd
              cases hd
            simp [hd, hne]
      rw [hc, List.singleton_append, readsAsIs_cons_iff, readsAsIs_cons_iff, hhead, ih]
      tauto
    · have hne : '\\' :: rest = [c] → ¬ReadsAsIs (c :: text) := by
        rintro heq hreads
        cases heq
        exact hreads.no_backslash List.mem_cons_self
      rw [hc]
      refine ⟨fun h => absurd List.mem_cons_self h.no_backslash, fun h => absurd h.1 (hne h.2.1)⟩

theorem escapeChar_cases (c : Char) : escapeChar c = [c] ∨ ∃ rest, escapeChar c = '\\' :: rest := by
  unfold escapeChar
  repeat' split
  all_goals first
    | exact Or.inr ⟨_, rfl⟩
    | exact Or.inl rfl

theorem readsAsIs_plain_append {a b : List Char} (ha : a.all isPlain = true) :
    ReadsAsIs (a ++ b) ↔ ReadsAsIs b := by
  rw [readsAsIs_append_iff (getLast?_ne_of_plain ha)]
  exact and_iff_right (readsAsIs_of_plain ha)

/-- A text may end in a dollar sign where no brace follows. -/
theorem readsAsIs_append_plain {a b : List Char} (hb : b.all isPlain = true) (hbrace : b.head? ≠ some '{') :
    ReadsAsIs (a ++ b) ↔ ReadsAsIs a := by
  induction a with
  | nil => exact iff_of_true (readsAsIs_of_plain hb) readsAsIs_nil
  | cons c a ih =>
    have hhead : (a ++ b).head? = some '{' ↔ a.head? = some '{' := by
      cases a with
      | nil => exact iff_of_false hbrace nofun
      | cons d a => rfl
    rw [List.cons_append, readsAsIs_cons_iff, readsAsIs_cons_iff, hhead, ih]

/-- The quotation marks around a description are plain, and so are the line breaks inside them. -/
theorem readsAsIs_literal_iff (text : String) : ReadsAsIs (literal text.toList) ↔ ShownAsIs text := by
  have hbreak : ∀ b : Bool, (if b then ['\n'] else []).all isPlain = true ∧
      (if b then ['\n'] else []).head? ≠ some '{' := by decide
  unfold literal ShownAsIs
  split
  · unfold block
    dsimp only
    rw [readsAsIs_append_plain (by decide) (by decide),
      readsAsIs_append_plain (hbreak _).1 (hbreak _).2, readsAsIs_plain_append, readsAsIs_escapeQuotes_iff]
    rw [List.all_append, (hbreak _).1]
    rfl
  · rw [quoted, readsAsIs_append_plain (by decide) (by decide), ← List.singleton_append,
      readsAsIs_plain_append (by decide), readsAsIs_flatMap_iff escapeChar_cases (by decide)]

example : ShownAsIs "A \x60word\x60 for $5" ∧ ¬ShownAsIs "C:\\new" ∧ ¬ShownAsIs "$\x7ba\x7d" := by
  decide +kernel

/-- Indenting the lines of a text adds blanks only. -/
theorem readsAsIs_indentLines_iff {indent : List Char} (hindent : indent.all isPlain = true)
    (text : List Char) : ReadsAsIs (indentLines indent text) ↔ ReadsAsIs text := by
  unfold indentLines
  induction text with
  | nil => rfl
  | cons c text ih =>
    rw [List.flatMap_cons]
    by_cases hc : c = '\n'
    · have hplain : ('\n' :: indent).all isPlain = true := by
        rw [List.all_cons, hindent]
        rfl
      rw [if_pos hc, readsAsIs_plain_append hplain, ih, readsAsIs_cons_iff, hc]
      simp
    · have hhead : (text.flatMap fun c => if c = '\n' then '\n' :: indent else [c]).head? = some '{' ↔
          text.head? = some '{' := by
        cases text with
        | nil => rfl
        | cons d text =>
          by_cases hd : d = '\n'
          · simp [hd]
          · simp [hd]
      rw [if_neg hc, List.singleton_append, readsAsIs_cons_iff, readsAsIs_cons_iff, ih, hhead]

/-- What is put before a described item reads as it is where the description does. -/
theorem shows_render (description : Option String) {indent : String}
    (hindent : indent.toList.all isPlain = true) (isFirst : Bool) :
    Shows (∀ text ∈ description, ShownAsIs text) (Description.render description indent isFirst) := by
  cases description with
  | none => exact (shows_plain rfl).congr (by simp)
  | some text =>
    have hgap : ∀ b : Bool, (if b then "" else "\n").toList.all isPlain = true := by decide
    have hstart : ((if indent.isEmpty || isFirst then "" else "\n") ++ indent).toList.all isPlain = true := by
      rw [String.toList_append, List.all_append, hindent, hgap]
      rfl
    unfold Description.render
    dsimp only
    refine ⟨?_, ?_⟩
    · rw [String.toList_append, List.getLast?_append]
      exact nofun
    · rw [String.toList_append, readsAsIs_append_plain (by decide) (by decide), String.toList_append,
        readsAsIs_plain_append hstart, String.toList_ofList, readsAsIs_indentLines_iff hindent,
        readsAsIs_literal_iff]
      simp

/-! ## Parts of types -/

/-- That a reference is a name. -/
def IsNameRef (ref : String) : Prop := isName ref.toList = true

theorem plain_of_isName {n : String} (h : isName n.toList = true) : n.toList.all isPlain = true := by
  refine List.all_eq_true.mpr fun c hc => ?_
  have hcontinue := List.all_eq_true.mp (Naming.all_of_isName h) c hc
  exact Naming.of_ascii (p := fun c => isNameContinue c = true → isPlain c = true) (by decide +kernel)
    (Naming.toNat_lt_of_isNameContinue hcontinue) hcontinue

theorem plain_append {a b : String} (ha : a.toList.all isPlain = true) (hb : b.toList.all isPlain = true) :
    (a ++ b).toList.all isPlain = true := by
  rw [String.toList_append, List.all_append, ha, hb]
  rfl

/-- The text of a type has names, brackets and exclamation marks. -/
theorem plain_render {t : TypeExpr String} (h : t.Sound IsNameRef) : t.render.toList.all isPlain = true := by
  induction t with
  | named => exact plain_of_isName h
  | list item ih => exact plain_append (plain_append (by decide) (ih h)) (by decide)
  | nonNull inner ih => exact plain_append (ih h.2) (by decide)

theorem plain_inputField {name : String} (hname : isName name.toList = true) {field : InputField String}
    (hfield : field.Sound IsNameRef) (hdeprecation : field.deprecation = none) :
    (field.print name).toList.all isPlain = true := by
  rw [InputField.print, hdeprecation]
  exact plain_append (plain_append (plain_append (plain_of_isName hname) (by decide)) (plain_render hfield))
    (by decide)

theorem forall_mem_markFirst {α : Type} {l : List α} {p : α → Prop} :
    (∀ e ∈ markFirst l, p e.2) ↔ ∀ x ∈ l, p x := by
  cases l with
  | nil => simp [markFirst]
  | cons x l => simp [markFirst]

theorem shows_marked {sep : String} (hsep : sep.toList.all isPlain = true) {α : Type} {l : List α}
    {f : Bool × α → String} {p : α → Prop} (h : ∀ isFirst, ∀ x ∈ l, Shows (p x) (f (isFirst, x))) :
    Shows (∀ x ∈ l, p x) (sep.intercalate ((markFirst l).map f)) := by
  have hmarked : ∀ e ∈ markFirst l, ∀ isFirst, Shows (p e.2) (f (isFirst, e.2)) :=
    forall_mem_markFirst.mpr fun x hx isFirst => h isFirst x hx
  exact (shows_intercalate_map hsep fun e he => hmarked e he e.1).congr forall_mem_markFirst

theorem shows_printBlock {α : Type} {l : List α} {f : Bool × α → String} {p : α → Prop}
    (h : ∀ isFirst, ∀ x ∈ l, Shows (p x) (f (isFirst, x))) :
    Shows (∀ x ∈ l, p x) (printBlock ((markFirst l).map f)) := by
  unfold printBlock
  split
  · rename_i hempty
    cases l with
    | nil => exact (shows_plain rfl).congr (by simp)
    | cons x l => cases hempty
  · exact ((shows_marked (by decide) h).plain_append (by decide)).append_plain (by decide)

/-- A described item on a line of its own. -/
theorem shows_item (description : Option String) (isFirst : Bool) {q : Prop} {item : String}
    (hitem : Shows q item) :
    Shows ((∀ text ∈ description, ShownAsIs text) ∧ q)
      (Description.render description "  " isFirst ++ "  " ++ item) :=
  ((shows_render description (by decide) isFirst).append_plain (by decide)).append hitem

/-- Arguments are shown as they are exactly if their descriptions are. -/
theorem shows_printArgs {args : FieldMap (InputField String)} (hsound : args.Sound (InputField.Sound IsNameRef))
    (hdeprecation : ∀ entry ∈ args, entry.2.deprecation = none) :
    Shows (∀ entry ∈ args, ∀ text ∈ entry.2.description, ShownAsIs text) (printArgs args "  ") := by
  have hprint : ∀ entry ∈ args, (entry.2.print entry.1).toList.all isPlain = true := fun entry hentry =>
    plain_inputField (hsound entry hentry).1 (hsound entry hentry).2 (hdeprecation entry hentry)
  unfold printArgs
  split
  · rename_i hempty
    rw [List.isEmpty_iff] at hempty
    subst hempty
    exact (shows_plain rfl).congr (by simp)
  split
  · rename_i hnone
    have hplain : Shows (∀ entry ∈ args, True)
        (", ".intercalate (args.map fun entry => entry.2.print entry.1)) :=
      shows_intercalate_map (by decide) fun entry hentry => shows_plain (hprint entry hentry)
    refine ((hplain.plain_append (by decide)).append_plain (by decide)).congr ?_
    refine iff_of_true (fun _ _ => trivial) fun entry hentry text htext => ?_
    have hdescription := List.all_eq_true.mp hnone entry hentry
    rw [Option.isNone_iff_eq_none] at hdescription
    rw [hdescription] at htext
    cases htext
  · refine ((Shows.plain_append (by decide) (shows_marked (by decide) fun isFirst entry hentry => ?_)).append_plain
      (by decide)).append_plain (by decide) |>.append_plain (by decide)
    have hindent : ("  " ++ "  ").toList.all isPlain = true := by decide
    exact ((shows_render entry.2.description hindent isFirst).append_plain hindent).append_plain
      (hprint entry hentry)

/-- All of a field but the descriptions is plain. -/
theorem shows_outputField {name : String} (hname : isName name.toList = true) {field : OutputField String}
    (hsound : field.Sound IsNameRef) (hplain : field.Described fun _ => True) (isFirst : Bool) :
    Shows (field.Described ShownAsIs)
      (Description.render field.description "  " isFirst ++ "  " ++ name ++ printArgs field.args "  " ++
        ": " ++ field.type.render ++ printDeprecation field.deprecation) := by
  have hargs := shows_printArgs hsound.2 fun entry hentry => (hplain.2.2 entry hentry).1
  have hnamed := (shows_item field.description isFirst (shows_plain (plain_of_isName hname))).append hargs
  rw [hplain.1]
  refine (((hnamed.append_plain (by decide)).append_plain (plain_render hsound.1)).append_plain
    (by decide)).congr ?_
  unfold OutputField.Described InputField.Described
  constructor
  · rintro ⟨⟨hdescription, _⟩, hdescriptions⟩
    exact ⟨hplain.1, hdescription, fun entry hentry =>
      ⟨(hplain.2.2 entry hentry).1, hdescriptions entry hentry⟩⟩
  · rintro ⟨_, hdescription, hdescriptions⟩
    exact ⟨⟨hdescription, trivial⟩, fun entry hentry => (hdescriptions entry hentry).2⟩

/-! ## Bodies -/

theorem shows_printFields {fields : FieldMap (OutputField String)}
    (hsound : fields.Sound (OutputField.Sound IsNameRef))
    (hplain : ∀ entry ∈ fields, entry.2.Described fun _ => True) :
    Shows (∀ entry ∈ fields, entry.2.Described ShownAsIs) (printFields fields) :=
  shows_printBlock fun isFirst entry hentry =>
    shows_outputField (hsound entry hentry).1 (hsound entry hentry).2 (hplain entry hentry) isFirst

theorem plain_intercalate {sep : String} (hsep : sep.toList.all isPlain = true) {names : List String}
    (hnames : ∀ n ∈ names, IsNameRef n) : (sep.intercalate names).toList.all isPlain = true := by
  induction names with
  | nil =>
    rw [String.intercalate_nil]
    rfl
  | cons n names ih =>
    have hfirst := plain_of_isName (hnames n List.mem_cons_self)
    have hrest := ih fun m hm => hnames m (List.mem_cons_of_mem _ hm)
    cases names with
    | nil =>
      rw [String.intercalate_singleton]
      exact hfirst
    | cons m names =>
      rw [String.intercalate_cons_cons]
      exact plain_append (plain_append hfirst hsep) hrest

theorem plain_printInterfaces {interfaces : List String} (h : ∀ n ∈ interfaces, IsNameRef n) :
    (printInterfaces interfaces).toList.all isPlain = true := by
  unfold printInterfaces
  split
  · rfl
  · exact plain_append (by decide) (plain_intercalate (by decide) h)

/-- All of a type that is printed behind its description reads as it is, but for the descriptions in it. -/
theorem shows_printBody {name : String} (hname : isName name.toList = true) {body : TypeBody String}
    (hsound : body.Sound IsNameRef) (hplain : body.Described fun _ => True) :
    Shows (body.Described ShownAsIs) (printBody name body) := by
  have hnamed : ∀ keyword : String, keyword.toList.all isPlain = true →
      (keyword ++ name).toList.all isPlain = true := fun _ hkeyword =>
    plain_append hkeyword (plain_of_isName hname)
  -- Only fields bring descriptions with them; the rest of every body is plain.
  cases body with
  | scalar specification =>
    have hnone : specification = none := hplain
    subst hnone
    exact (shows_plain (plain_append (hnamed "scalar " (by decide)) (by decide))).congr
      (iff_of_true trivial rfl)
  | enum values =>
    have hvalues : Shows (∀ entry ∈ values, True)
        (printBlock ((markFirst values).map fun entry =>
          Description.render entry.2.2.description "  " entry.1 ++ "  " ++ entry.2.1
            ++ printDeprecation entry.2.2.deprecation)) := by
      refine shows_printBlock fun isFirst entry hentry => shows_plain ?_
      obtain ⟨hvalue, hinfo⟩ := hplain entry hentry
      dsimp only
      rw [hinfo]
      exact plain_append (plain_append (plain_append rfl (by decide)) (plain_of_isName hvalue)) (by decide)
    exact (hvalues.plain_append (hnamed "enum " (by decide))).congr
      (iff_of_true (fun _ _ => trivial) hplain)
  | object interfaces fields =>
    exact (shows_printFields hsound.2 hplain).plain_append
      (plain_append (hnamed "type " (by decide)) (plain_printInterfaces hsound.1))
  | interface interfaces fields =>
    exact (shows_printFields hsound.2 hplain).plain_append
      (plain_append (hnamed "interface " (by decide)) (plain_printInterfaces hsound.1))
  | union members =>
    refine (shows_plain (plain_append (hnamed "union " (by decide)) ?_)).congr (iff_of_true trivial trivial)
    split
    · rfl
    · exact plain_append (by decide) (plain_intercalate (by decide) hsound)
  | inputObject fields isOneOf =>
    have hmark : ∀ b : Bool, (if b then " @oneOf" else "").toList.all isPlain = true := by decide
    have hfields : Shows (∀ entry ∈ fields, entry.2.Described ShownAsIs)
        (printBlock ((markFirst fields).map fun entry =>
          Description.render entry.2.2.description "  " entry.1 ++ "  " ++ entry.2.2.print entry.2.1)) := by
      refine shows_printBlock fun isFirst entry hentry => ?_
      have hitem := plain_inputField (hsound entry hentry).1 (hsound entry hentry).2 (hplain entry hentry).1
      refine (shows_item entry.2.description isFirst (shows_plain hitem)).congr ?_
      exact ⟨fun h => ⟨(hplain entry hentry).1, h.1⟩, fun h => ⟨h.2, trivial⟩⟩
    exact hfields.plain_append (plain_append (hnamed "input " (by decide)) (hmark _))

/-! ## Types and schemas -/

/-- The text of a type is shown as it is exactly if all of its descriptions are. -/
theorem shows_print {t : NamedType String} (hname : isName t.name.toList = true)
    (hsound : t.body.Sound IsNameRef) (hplain : t.Described fun _ => True) :
    Shows (t.Described ShownAsIs) t.print :=
  (shows_render t.description (by decide) true).append (shows_printBody hname hsound hplain.2)

end OpenCrud.Client
