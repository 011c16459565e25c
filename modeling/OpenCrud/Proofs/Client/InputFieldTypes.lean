import OpenCrud.Client.TypeText
import OpenCrud.Proofs.Naming
import OpenCrud.Value

/-!
# Values of input fields

How a script reads the type of a field (`readType?`), where brackets bind tighter than bars, and which values it takes
then (`ScriptType.Accepts`). An input field is to take one item for a list of one, at every level of a type
(`Takes`). Main result: its type is read as a union of arrays of the named type and of the named type itself, so that
it takes what it is to take exactly where lists are not nested (`takes_inputFieldType_iff`).

The type of the items of a list is a union when they are lists themselves, and it is written without parentheses:
the brackets behind it reach only the last of its alternatives.
-/

namespace OpenCrud.Client

/-! ## Reading types -/

/-- A type as a script has it. -/
inductive ScriptType where
  | name (text : String)
  | array (item : ScriptType)
  | union (left right : ScriptType)
  deriving DecidableEq, Repr

/-- A type behind others that are separated by bars. -/
def ScriptType.behind (t : ScriptType) : Option ScriptType → ScriptType
  | none => t
  | some left => .union left t

/-- What has been read of a type. -/
structure TypeReader where
  /-- The alternatives before the last bar. -/
  before : Option ScriptType := none
  /-- What has been read behind it. -/
  last : Option ScriptType := none
  /-- Whether the last character belongs to a name. -/
  inName : Bool := false
  /-- Whether brackets are open. -/
  inBrackets : Bool := false
  /-- What stands before each parenthesis that is open, the innermost first. -/
  outer : List (Option ScriptType) := []

/-- Reads one character. Brackets make an array of what stands right before them; a bar ends an alternative. -/
def TypeReader.read (r : TypeReader) (c : Char) : Option TypeReader :=
  if r.inBrackets then
    if c = ']' then r.last.map fun t => { r with last := some (.array t), inBrackets := false } else none
  else if isNameContinue c then
    match r.last with
    | none => if isNameStart c then some { r with last := some (.name c.toString), inName := true } else none
    | some (.name text) => if r.inName then some { r with last := some (.name (text.push c)) } else none
    | some _ => none
  else if c = ' ' then some { r with inName := false }
  else if c = '[' then
    if r.last.isSome then some { r with inName := false, inBrackets := true } else none
  else if c = '|' then
    r.last.map fun t => { r with before := some (t.behind r.before), last := none, inName := false }
  else if c = '(' then
    if r.last.isNone then some { outer := r.before :: r.outer } else none
  else if c = ')' then
    match r.last, r.outer with
    | some t, before :: outer => some { before, last := some (t.behind r.before), outer }
    | _, _ => none
  else none

/-- The type that has been read, if it ends here. -/
def TypeReader.finish? (r : TypeReader) : Option ScriptType :=
  if r.outer.isEmpty && !r.inBrackets then r.last.map (·.behind r.before) else none

/-- The type that a text stands for. -/
def readType? (text : List Char) : Option ScriptType :=
  (text.foldlM TypeReader.read {}).bind TypeReader.finish?

example : readType? "(A | B)[] | C".toList =
    some (.union (.array (.union (.name "A") (.name "B"))) (.name "C")) := by decide

example : readType? "A | B[]".toList = some (.union (.name "A") (.array (.name "B"))) := by decide

/-! ## Values -/

/-- The values of a type, given those of the types that have names. -/
def ScriptType.Accepts (env : String → Value → Prop) : ScriptType → Value → Prop
  | .name text, v => env text v
  | .array item, v => ∃ items, v = .list items ∧ ∀ x ∈ items, item.Accepts env x
  | .union left right, v => left.Accepts env v ∨ right.Accepts env v

/-- The values without null that an input field is to take: at every level a list of items, or one of them. -/
def Takes (env : String → Value → Prop) : TypeExpr String → Value → Prop
  | .named name, v => env (inputName name) v
  | .nonNull inner, v => Takes env inner v
  | .list item, v => Takes env item v ∨ ∃ items, v = .list items ∧ ∀ x ∈ items, Takes env item x

/-- How deep lists are nested in a type. -/
def listDepth : TypeExpr String → Nat
  | .named _ => 0
  | .nonNull inner => listDepth inner
  | .list item => listDepth item + 1

/-- The number of arrays that the type of an input field is written with: twice those of its items, and one. -/
def arrayCount : TypeExpr String → Nat
  | .named _ => 0
  | .nonNull inner => arrayCount inner
  | .list item => arrayCount item + 1 + arrayCount item

theorem arrayCount_pos_iff (t : TypeExpr String) : 0 < arrayCount t ↔ 0 < listDepth t := by
  induction t with
  | named name => exact Iff.rfl
  | nonNull inner ih => exact ih
  | list item =>
    simp only [arrayCount, listDepth]
    omega

/-! ## Reading the types of input fields -/

section Reading

variable {before : Option ScriptType} {outer : List (Option ScriptType)}

theorem foldlM_read_nameRest {rest : List Char} (h : rest.all isNameContinue = true) (text : String) :
    rest.foldlM TypeReader.read ⟨before, some (.name text), true, false, outer⟩ =
      some ⟨before, some (.name (text ++ String.ofList rest)), true, false, outer⟩ := by
  induction rest generalizing text with
  | nil => simp
  | cons c rest ih =>
    rw [List.all_cons, Bool.and_eq_true] at h
    have hstep : TypeReader.read ⟨before, some (.name text), true, false, outer⟩ c =
        some ⟨before, some (.name (text.push c)), true, false, outer⟩ := by
      simp [TypeReader.read, h.1]
    have htext : text.push c ++ String.ofList rest = text ++ String.ofList (c :: rest) := by
      rw [← String.toList_inj]
      simp
    rw [List.foldlM_cons, hstep, ← htext]
    exact ih h.2 _

theorem foldlM_read_name {name : String} (h : isName name.toList = true) :
    name.toList.foldlM TypeReader.read ⟨before, none, false, false, outer⟩ =
      some ⟨before, some (.name name), true, false, outer⟩ := by
  cases hname : name.toList with
  | nil =>
    rw [hname] at h
    cases h
  | cons c rest =>
    rw [hname, isName, Bool.and_eq_true] at h
    have hcontinue := Naming.isNameContinue_of_isNameStart h.1
    have hstep : TypeReader.read ⟨before, none, false, false, outer⟩ c =
        some ⟨before, some (.name c.toString), true, false, outer⟩ := by
      simp [TypeReader.read, h.1, hcontinue]
    have htext : c.toString ++ String.ofList rest = name := by
      rw [← String.toList_inj, hname]
      simp
    rw [List.foldlM_cons, hstep, ← htext]
    exact foldlM_read_nameRest h.2 _

/-- Between two alternatives an array is made of what stands right before. -/
theorem foldlM_read_brackets (t : ScriptType) :
    "[] | ".toList.foldlM TypeReader.read ⟨before, some t, true, false, outer⟩ =
      some ⟨some (t.array.behind before), none, false, false, outer⟩ := rfl

/-- A number of equal alternatives behind others. -/
def repeated (t : ScriptType) (before : Option ScriptType) : Nat → Option ScriptType
  | 0 => before
  | count + 1 => some (t.behind (repeated t before count))

theorem repeated_repeated (t : ScriptType) (count more : Nat) :
    repeated t (repeated t before count) more = repeated t before (count + more) := by
  induction more with
  | zero => rfl
  | succ more ih =>
    show some (t.behind _) = some (t.behind (repeated t before (count + more)))
    rw [ih]

/-- However deep its lists are nested, the type of an input field is read as arrays of its named type and that type:
the brackets never reach further than to the name before them. -/
theorem foldlM_read_inputFieldType {t : TypeExpr String} (h : isName (inputName t.base).toList = true) :
    ∀ before, (inputFieldType t).toList.foldlM TypeReader.read ⟨before, none, false, false, outer⟩ =
      some ⟨repeated (.array (.name (inputName t.base))) before (arrayCount t),
        some (.name (inputName t.base)), true, false, outer⟩ := by
  induction t with
  | named name => exact fun before => foldlM_read_name h
  | nonNull inner ih => exact ih h
  | list item ih =>
    intro before
    have htext : (inputFieldType (.list item)).toList =
        (inputFieldType item).toList ++ "[] | ".toList ++ (inputFieldType item).toList := by
      rw [inputFieldType, String.toList_append, String.toList_append]
    rw [htext, List.foldlM_append, List.foldlM_append, ih h before, Option.bind_eq_bind, Option.bind_some,
      foldlM_read_brackets, Option.bind_some, ih h]
    show some (TypeReader.mk (repeated _ (repeated _ before (arrayCount item + 1)) _) _ _ _ _) = _
    rw [repeated_repeated]
    rfl

theorem isName_inputName {name : String} (h : isName name.toList = true) : isName (inputName name).toList = true := by
  unfold inputName
  split
  · decide
  · exact h

theorem readType?_inputFieldType {t : TypeExpr String} (h : isName t.base.toList = true) :
    readType? (inputFieldType t).toList =
      some ((ScriptType.name (inputName t.base)).behind
        (repeated (.array (.name (inputName t.base))) none (arrayCount t))) := by
  have hread := @foldlM_read_inputFieldType [] t (isName_inputName h) none
  rw [readType?, hread]
  rfl

end Reading

/-! ## What is taken -/

section Values

variable {env : String → Value → Prop} {v : Value}

theorem accepts_behind_iff {t : ScriptType} {before : Option ScriptType} :
    (t.behind before).Accepts env v ↔ (∃ left ∈ before, left.Accepts env v) ∨ t.Accepts env v := by
  cases before with
  | none => simp [ScriptType.behind]
  | some left => simp [ScriptType.behind, ScriptType.Accepts]

theorem accepts_repeated_iff {t : ScriptType} {count : Nat} :
    (∃ left ∈ repeated t none count, left.Accepts env v) ↔ 0 < count ∧ t.Accepts env v := by
  induction count with
  | zero => simp [repeated]
  | succ count ih =>
    have hlast : (∃ left ∈ repeated t none (count + 1), left.Accepts env v) ↔
        (t.behind (repeated t none count)).Accepts env v := by
      simp [repeated]
    rw [hlast, accepts_behind_iff, ih]
    constructor
    · rintro (⟨_, ht⟩ | ht)
      · exact ⟨Nat.succ_pos _, ht⟩
      · exact ⟨Nat.succ_pos _, ht⟩
    · exact fun h => .inr h.2

/-- What a field without lists is to take are the values of its named type. -/
theorem takes_iff_of_listDepth_zero {t : TypeExpr String} (h : listDepth t = 0) :
    Takes env t v ↔ env (inputName t.base) v := by
  induction t with
  | named name => exact Iff.rfl
  | nonNull inner ih => exact ih h
  | list item => cases h

theorem takes_iff_of_listDepth_one {t : TypeExpr String} (h : listDepth t = 1) : Takes env t v ↔
    env (inputName t.base) v ∨ ∃ items, v = .list items ∧ ∀ x ∈ items, env (inputName t.base) x := by
  induction t with
  | named name => cases h
  | nonNull inner ih => exact ih h
  | list item =>
    have hitem : listDepth item = 0 := Nat.succ.inj h
    rw [Takes, takes_iff_of_listDepth_zero hitem]
    simp only [takes_iff_of_listDepth_zero hitem]
    rfl

/-- A value in a number of lists. -/
def nest (v : Value) : Nat → Value
  | 0 => v
  | depth + 1 => .list [nest v depth]

/-- An item may stand in as many lists as its type has. -/
theorem takes_nest {t : TypeExpr String} (hv : env (inputName t.base) v) {depth : Nat} (h : depth ≤ listDepth t) :
    Takes env t (nest v depth) := by
  induction t generalizing depth with
  | named name =>
    obtain rfl : depth = 0 := Nat.le_zero.mp h
    exact hv
  | nonNull inner ih => exact ih hv h
  | list item ih =>
    cases depth with
    | zero => exact .inl (ih hv (Nat.zero_le _))
    | succ depth => exact .inr ⟨_, rfl, List.forall_mem_singleton.mpr (ih hv (Nat.le_of_succ_le_succ h))⟩

end Values

/-! ## Main result -/

/-- The type of an input field is read as one that takes the values of its named type and, where it is a list, the
lists of those. That is what it is to take exactly where its lists are not nested. -/
theorem takes_inputFieldType_iff {t : TypeExpr String} (h : isName t.base.toList = true) :
    ∃ read, readType? (inputFieldType t).toList = some read ∧
      (∀ env v, read.Accepts env v ↔ env (inputName t.base) v ∨
        0 < listDepth t ∧ ∃ items, v = .list items ∧ ∀ x ∈ items, env (inputName t.base) x) ∧
      ((∀ env v, Takes env t v → read.Accepts env v) ↔ listDepth t ≤ 1) := by
  have haccepts : ∀ env v, ((ScriptType.name (inputName t.base)).behind
      (repeated (.array (.name (inputName t.base))) none (arrayCount t))).Accepts env v ↔
        env (inputName t.base) v ∨
          0 < listDepth t ∧ ∃ items, v = .list items ∧ ∀ x ∈ items, env (inputName t.base) x := by
    intro env v
    rw [accepts_behind_iff, accepts_repeated_iff, arrayCount_pos_iff, or_comm]
    rfl
  refine ⟨_, readType?_inputFieldType h, haccepts, fun hall => ?_, fun hdepth env v htakes => ?_⟩
  · -- An item in two lists is no item, and neither is what the outer list has.
    refine Nat.le_of_not_lt fun hdepth => ?_
    have htakes : Takes (fun _ v => v = .bool true) t (nest (.bool true) 2) := takes_nest rfl hdepth
    rcases (haccepts _ _).mp (hall _ _ htakes) with hitem | ⟨_, items, hitems, hitem⟩
    · cases hitem
    · cases hitems
      cases hitem _ List.mem_cons_self
  · rw [haccepts]
    obtain hzero | hone : listDepth t = 0 ∨ listDepth t = 1 := by omega
    · exact .inl ((takes_iff_of_listDepth_zero hzero).mp htakes)
    · rcases (takes_iff_of_listDepth_one hone).mp htakes with hitem | hitems
      · exact .inl hitem
      · exact .inr ⟨hone ▸ Nat.one_pos, hitems⟩

/-- A list of identifiers is written so that one of them stands for a list of one. -/
theorem takes_inputFieldType_ids : isName (TypeExpr.list (.nonNull (.named "ID"))).base.toList = true ∧
    ∃ read, readType? "ID_Input[] | ID_Input".toList = some read ∧
      ∀ env v, Takes env (.list (.nonNull (.named "ID"))) v → read.Accepts env v := by
  have hname : isName (TypeExpr.list (.nonNull (.named "ID"))).base.toList = true := by decide
  obtain ⟨read, hread, _, htakes⟩ := takes_inputFieldType_iff hname
  exact ⟨hname, read, hread, htakes.mpr (by decide)⟩

/-- The type of a grid of numbers, as far as an input field tells. -/
def gridType : TypeExpr String := .list (.nonNull (.list (.nonNull (.named "Int"))))

/-- A list in a list is to be taken and is not: all brackets are read as those of the same array. -/
theorem nested_list_not_taken : ∃ read, inputFieldType gridType = "Int[] | Int[] | Int[] | Int" ∧
    readType? "Int[] | Int[] | Int[] | Int".toList = some read ∧
    ∃ env v, Takes env gridType v ∧ ¬read.Accepts env v := by
  refine ⟨_, by decide, rfl, fun _ v => v = .int 1, .list [.list [.int 1]], ?_, fun haccepts => ?_⟩
  · exact .inr ⟨_, rfl, List.forall_mem_singleton.mpr (.inr ⟨_, rfl, List.forall_mem_singleton.mpr rfl⟩)⟩
  · have harray : ¬ScriptType.Accepts (fun _ v => v = .int 1) (.array (.name "Int")) (.list [.list [.int 1]]) := by
      rintro ⟨_, hitems, hitem⟩
      cases hitems
      cases hitem _ List.mem_cons_self
    rcases haccepts with ((haccepts | haccepts) | haccepts) | haccepts
    · exact harray haccepts
    · exact harray haccepts
    · exact harray haccepts
    · cases haccepts

end OpenCrud.Client
