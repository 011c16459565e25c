import OpenCrud.Proofs.Generate.Bodies

/-!
# Inputs without fields

An input is left out when it would have no field. That is decided without looking at the fields, and for four kinds
of inputs the fields tell something else. Those that create and those that update an item drop the relation fields
whose own inputs are left out, and what remains can be nothing (`isHollow`). Those that need all of their parts
(`Kind.needsParts`) have their fields also where a part is missing, and the decision keeps them from being used then
(`LacksPart`). Main result: `emptyInputs_iff`.
-/

namespace OpenCrud.Generate

open Datamodel
open MonadExcept (ofExcept)

/-! ## Dropped fields -/

/-- Whether an input that creates an item drops a field: neither can a related item be created, nor can one
be connected. -/
def dropsOnCreate (g : TypeGraph) (f : ModelField) : Bool :=
  match target g f with
  | .ok (.relation u) => !(isWritable u || isConnectable u)
  | _ => false

/-- Whether an input that updates an item drops a field: nothing can be done with what is related. -/
def dropsOnUpdate (g : TypeGraph) (f : ModelField) : Bool :=
  match target g f with
  | .ok (.relation u) =>
    if f.isList then !(isSelectable u || isWritable u)
    else !(isWritable u || !f.isRequired || isConnectable u)
  | _ => false

/-- Whether an input is made although all that it could set is dropped. -/
def isHollow (g : TypeGraph) (t : ModelType) : Kind → Bool
  | .create => isWritable t && (writableFields t).all (dropsOnCreate g)
  | .update => isWritable t && (writableFields t).all (dropsOnUpdate g)
  | _ => false

/-- Whether one of the fields refers to a type that does not exist. -/
def LacksPart (fields : FieldMap (InputField Handle)) : Prop := ∃ entry ∈ fields, entry.2.type.base = .absent

theorem isHollow_of_needsParts {g : TypeGraph} {t : ModelType} {k : Kind} (h : k.needsParts = true) :
    isHollow g t k = false := by
  cases k <;> first | rfl | cases h

theorem offersInput_of_isHollow {g : TypeGraph} {t : ModelType} {required : Bool} {k : Kind}
    (h : isHollow g t k = true) : offersInput g t required k = true := by
  cases k with
  | create => exact (Bool.and_eq_true_iff.mp h).1
  | update => exact (Bool.and_eq_true_iff.mp h).1
  | _ => cases h

/-! ## Maps of chosen fields -/

section Chosen

variable {α β : Type} {l : List α}

theorem ofEntries_mapM_eq_nil_iff {f : α → Except Error (String × β)} :
    (l.mapM f >>= fun entries => pure (FieldMap.ofEntries entries)) = .ok [] ↔ l = [] := by
  constructor
  · intro h
    obtain ⟨entries, hentries, h⟩ := bind_eq_ok_iff.mp h
    have hnil : entries = [] := FieldMap.ofEntries_eq_nil_iff.mp (Except.ok.inj h)
    have hlength := length_of_mapM_eq_ok hentries
    rw [hnil] at hlength
    exact List.length_eq_zero_iff.mp hlength.symm
  · rintro rfl
    rfl

theorem eq_ok_none_of_mapM {f : α → Except Error (Option β)} {made : List (Option β)}
    (hmade : l.mapM f = .ok made) (hnil : made.filterMap id = []) : ∀ a ∈ l, f a = .ok none := by
  induction l generalizing made with
  | nil => exact nofun
  | cons a l ih =>
    rw [List.mapM_cons, bind_eq_ok_iff] at hmade
    obtain ⟨b, hb, hmade⟩ := hmade
    obtain ⟨rest, hrest, hmade⟩ := bind_eq_ok_iff.mp hmade
    cases hmade
    cases b with
    | some entry => cases hnil
    | none => exact List.forall_mem_cons.mpr ⟨hb, ih hrest hnil⟩

theorem ofEntries_chosen_eq_nil_iff {f : α → Except Error (Option (String × β))} :
    (l.mapM f >>= fun made => pure (FieldMap.ofEntries (made.filterMap id))) = .ok [] ↔
      ∀ a ∈ l, f a = .ok none := by
  constructor
  · intro h
    obtain ⟨made, hmade, h⟩ := bind_eq_ok_iff.mp h
    exact eq_ok_none_of_mapM hmade (FieldMap.ofEntries_eq_nil_iff.mp (Except.ok.inj h))
  · intro h
    have hnone : ∀ l : List α, (l.map fun _ => (none : Option (String × β))).filterMap id = [] := by
      intro l
      rw [List.filterMap_map, List.filterMap_eq_nil_iff]
      exact fun _ _ => rfl
    rw [mapM_eq_ok h, ok_bind, hnone]
    rfl

end Chosen

/-! ## Fields that are dropped -/

section Fields

variable {g : TypeGraph} (h : WellFormed g.types) {t : ModelType} (ht : t ∈ g.types)

theorem some_entry_ne_none {name : String} (x : Except Error (TypeExpr Handle)) :
    (x >>= fun e => pure (some (name, ({ type := e } : InputField Handle)))) ≠ .ok none := by
  intro hx
  obtain ⟨_, _, hx⟩ := bind_eq_ok_iff.mp hx
  cases hx

theorem mapped_madeIf_eq_none_iff {α : Type} {b : Bool} {r : Request} {entry : Handle → α} :
    ((.ok (madeIf b r) : Except Error (Option Handle)) >>= fun made => pure (made.map entry)) =
      .ok none ↔ (!b) = true := by
  cases b with
  | true => exact ⟨nofun, nofun⟩
  | false => exact ⟨fun _ => rfl, fun _ => rfl⟩

include h ht

theorem createField_eq_none_iff {f : ModelField} (hf : f ∈ t.fields) :
    createField g (fresh g) f = .ok none ↔ dropsOnCreate g f = true := by
  unfold createField dropsOnCreate
  rw [ofExcept_eq]
  rcases target_of_mem h ht hf with ⟨s, _, htarget⟩ | ⟨u, _, _, _, htarget⟩ |
    ⟨u, hu, _, _, _, htarget⟩
  · rw [htarget]
    exact ⟨fun hc => absurd hc (some_entry_ne_none _), nofun⟩
  · rw [htarget]
    exact ⟨fun hc => absurd hc (some_entry_ne_none _), nofun⟩
  · rw [htarget, ok_bind]
    dsimp only
    cases f.isList with
    | true =>
      rw [if_pos rfl, Request.of, fresh_input h hu rfl rfl]
      exact mapped_madeIf_eq_none_iff
    | false =>
      rw [if_neg Bool.false_ne_true, Request.of, fresh_input h hu rfl rfl]
      exact mapped_madeIf_eq_none_iff

theorem updateField_eq_none_iff {f : ModelField} (hf : f ∈ t.fields) :
    updateField g (fresh g) f = .ok none ↔ dropsOnUpdate g f = true := by
  unfold updateField dropsOnUpdate
  rw [ofExcept_eq]
  rcases target_of_mem h ht hf with ⟨s, _, htarget⟩ | ⟨u, _, _, _, htarget⟩ |
    ⟨u, hu, _, _, _, htarget⟩
  · rw [htarget]
    exact ⟨fun hc => absurd hc (some_entry_ne_none _), nofun⟩
  · rw [htarget]
    exact ⟨fun hc => absurd hc (some_entry_ne_none _), nofun⟩
  · rw [htarget, ok_bind]
    dsimp only
    cases f.isList with
    | true =>
      rw [if_pos rfl, if_pos rfl, Request.of, fresh_input h hu rfl rfl]
      exact mapped_madeIf_eq_none_iff
    | false =>
      rw [if_neg Bool.false_ne_true, if_neg Bool.false_ne_true, fresh_input h hu rfl rfl]
      exact mapped_madeIf_eq_none_iff

/-! ## Inputs without fields -/

omit h ht in
theorem whereFields_ne_nil (ask : Ask (Except Error)) : whereFields g ask t ≠ .ok [] := by
  intro hnil
  obtain ⟨blocks, _, hnil⟩ := bind_eq_ok_iff.mp hnil
  obtain ⟨itself, _, hnil⟩ := bind_eq_ok_iff.mp hnil
  have hmerge := Except.ok.inj hnil
  rw [FieldMap.merge_concat, FieldMap.update_eq_nil_iff] at hmerge
  cases hmerge.2

omit h ht in
theorem operationFields_eq_nil_iff {operations : Except Error Operations} {b : Bool}
    {modify : TypeExpr Handle → TypeExpr Handle}
    (hempty : (operations >>= fun operations => pure operations.isEmpty) = .ok (!b)) :
    (operations >>= fun operations => pure (operationFields modify operations)) = .ok [] ↔
      b = false := by
  obtain ⟨found, rfl, hfound⟩ := bind_eq_ok_iff.mp hempty
  have hb : b = !found.isEmpty := by
    rw [Except.ok.inj hfound, Bool.not_not]
  rw [hb]
  cases found with
  | nil => exact ⟨fun _ => rfl, fun _ => rfl⟩
  | cons operation found => exact ⟨nofun, nofun⟩

omit h ht in
theorem filter_eq_nil_iff_any {α : Type} {p : α → Bool} {l : List α} :
    l.filter p = [] ↔ l.any p = false := by
  rw [← List.isEmpty_iff, isEmpty_filter, Bool.not_eq_true']

omit h ht in
/-- All writable fields are dropped when there are none, and otherwise each of them must be. -/
theorem chosenFields_eq_nil_iff {field : ModelField → Except Error (Option (String × InputField Handle))}
    {drops : ModelField → Bool} (hfield : ∀ f ∈ t.fields, field f = .ok none ↔ drops f = true) :
    ((writableFields t).mapM field >>= fun made => pure (FieldMap.ofEntries (made.filterMap id))) =
        .ok [] ↔
      isWritable t = false ∨ (isWritable t && (writableFields t).all drops) = true := by
  have hdrops : (∀ f ∈ writableFields t, field f = .ok none) ↔ (writableFields t).all drops = true := by
    rw [List.all_eq_true]
    exact forall₂_congr fun f hf => hfield f (List.mem_filter.mp hf).1
  rw [ofEntries_chosen_eq_nil_iff, hdrops]
  cases hwritable : isWritable t with
  | true => simp
  | false => simp [writableFields, filter_eq_nil_iff_any.mpr hwritable]

/-- An input that needs no part has no field where it is left out, and where it is hollow. -/
theorem inputFields_eq_nil_iff_offersInput {r : Request} (hk : r.kind.isInput = true)
    (hneeds : r.kind.needsParts = false) :
    inputFields g (fresh g) r t = .ok [] ↔
      offersInput g t r.args.required r.kind = false ∨ isHollow g t r.kind = true := by
  have hempty := wouldBeEmpty_fresh h ht hk
  unfold inputFields
  cases hkind : r.kind with
  | whereInput =>
    -- The logical operators are always there.
    exact ⟨fun hc => absurd hc (whereFields_ne_nil _), by rintro (hc | hc) <;> cases hc⟩
  | whereUnique =>
    have hunique : whereUniqueFields g (fresh g) t = .ok [] ↔ isSelectable t = false := by
      rw [whereUniqueFields, ofExcept_eq, uniqueFields_eq h ht, ok_bind, ofEntries_mapM_eq_nil_iff,
        filter_eq_nil_iff_any, isSelectable]
    simpa [offersInput, isHollow] using hunique
  | create => exact chosenFields_eq_nil_iff fun f hf => createField_eq_none_iff h ht hf
  | update => exact chosenFields_eq_nil_iff fun f hf => updateField_eq_none_iff h ht hf
  | updateManyMutation =>
    have hleaf : updateManyMutationFields g (fresh g) t = .ok [] ↔
        (t.fields.any fun f => !f.isReadOnly && isLeafOf g f) = false := by
      rw [updateManyMutationFields, ofExcept_eq, writableLeafFields_eq h ht, ok_bind,
        ofEntries_mapM_eq_nil_iff, writableFields, List.filter_filter, filter_eq_nil_iff_any]
      simp only [Bool.and_comm]
    simpa [offersInput, isHollow] using hleaf
  | createOne | createMany | updateOne | updateMany =>
    -- These inputs are tested by building their operations.
    rw [wouldBeEmpty, hkind] at hempty
    simpa [isHollow] using operationFields_eq_nil_iff hempty
  | updateWithWhereUnique | upsertNested =>
    rw [hkind] at hneeds
    cases hneeds
  | _ =>
    rw [hkind] at hk
    cases hk

/-! ## Missing parts -/

omit h ht in
theorem lacksPart_needed {parts : List (String × Option Handle)} (hparts : ∀ part ∈ parts, part.2 ≠ some .absent) :
    LacksPart (operationFields .nonNull (needed parts)) ↔ parts.any (·.2.isNone) = true := by
  have hmissing : ∀ part ∈ parts, part.2.getD .absent = .absent ↔ part.2.isNone = true := by
    intro part hpart
    cases hx : part.2 with
    | none => exact ⟨fun _ => rfl, fun _ => rfl⟩
    | some x => exact ⟨fun hc => absurd (hx.trans (congrArg some hc)) (hparts part hpart), nofun⟩
  rw [List.any_eq_true]
  constructor
  · rintro ⟨entry, hentry, habsent⟩
    obtain ⟨operation, hoperation, rfl⟩ := List.mem_map.mp hentry
    obtain ⟨part, hpart, rfl⟩ := List.mem_map.mp hoperation
    exact ⟨part, hpart, (hmissing part hpart).mp habsent⟩
  · rintro ⟨part, hpart, hnone⟩
    exact ⟨_, List.mem_map_of_mem (List.mem_map_of_mem hpart), (hmissing part hpart).mpr hnone⟩

omit h ht in
theorem madeIf_ne_absent {b : Bool} {r : Request} : madeIf b r ≠ some .absent := by
  cases b <;> nofun

/-- An input that needs its parts has the fields for them, whether they are there or not. -/
theorem exists_inputFields_needed {r : Request} (hneeds : r.kind.needsParts = true) :
    ∃ fields, inputFields g (fresh g) r t = .ok fields ∧ fields ≠ [] ∧
      (LacksPart fields ↔ offersInput g t r.args.required r.kind = false) := by
  unfold inputFields
  cases hkind : r.kind with
  | updateWithWhereUnique =>
    rw [updateSelectedParts_fresh h ht]
    refine ⟨_, rfl, nofun, (lacksPart_needed ?_).trans ?_⟩
    · exact List.forall_mem_cons.mpr ⟨madeIf_ne_absent, List.forall_mem_singleton.mpr madeIf_ne_absent⟩
    · cases hselectable : isSelectable t <;> simp [offersInput, hselectable]
  | upsertNested =>
    rw [upsertParts_fresh h ht]
    refine ⟨_, rfl, nofun, (lacksPart_needed ?_).trans ?_⟩
    · exact List.forall_mem_cons.mpr ⟨madeIf_ne_absent, List.forall_mem_singleton.mpr madeIf_ne_absent⟩
    · simp [offersInput]
  | _ =>
    rw [hkind] at hneeds
    cases hneeds

/-- The fields of an input are none where it is left out, unless it needs its parts, and where it is hollow. -/
theorem inputFields_eq_nil_iff {r : Request} (hk : r.kind.isInput = true) :
    inputFields g (fresh g) r t = .ok [] ↔
      (offersInput g t r.args.required r.kind = false ∧ r.kind.needsParts = false) ∨
        isHollow g t r.kind = true := by
  cases hneeds : r.kind.needsParts with
  | false =>
    rw [and_iff_left rfl]
    exact inputFields_eq_nil_iff_offersInput h ht hk hneeds
  | true =>
    obtain ⟨fields, hfields, hne, _⟩ := exists_inputFields_needed h ht hneeds
    rw [hfields]
    constructor
    · exact fun hnil => absurd (Except.ok.inj hnil) hne
    · rintro (⟨_, hc⟩ | hhollow)
      · cases hc
      · rw [isHollow_of_needsParts hneeds] at hhollow
        cases hhollow

/-- Only inputs that need their parts refer to types that do not exist, and only where they are left out. -/
theorem lacksPart_iff (henum : t.isEnum = false) {r : Request} :
    (∃ fields, inputFields g (fresh g) r t = .ok fields ∧ LacksPart fields) ↔
      offersInput g t r.args.required r.kind = false ∧ r.kind.needsParts = true := by
  constructor
  · rintro ⟨fields, hfields, hlacks⟩
    by_cases hmade : r.kind.needsParts = true → offersInput g t r.args.required r.kind = true
    · -- The fields of an input that is made are sound.
      have hsound := yields_inputFields h ht henum hmade
      rw [hfields] at hsound
      obtain ⟨entry, hentry, habsent⟩ := hlacks
      exact absurd habsent (TypeExpr.Sound.base (hsound entry hentry).2).ne_absent
    · obtain ⟨hneeds, hoffers⟩ := Classical.not_imp.mp hmade
      exact ⟨Bool.eq_false_iff.mpr hoffers, hneeds⟩
  · rintro ⟨hoffers, hneeds⟩
    obtain ⟨fields, hfields, _, hlacks⟩ := exists_inputFields_needed h ht hneeds
    exact ⟨fields, hfields, hlacks.mpr hoffers⟩

/-! ## Types of inputs -/

/-- The type of an input has the fields of the input. -/
theorem define_input_eq_nil_iff (henum : t.isEnum = false) {r : Request} (hk : r.kind.isInput = true)
    (hr : r.subject = t.name) :
    (define g (fresh g) (.made r)).map (·.body) = .ok (.inputObject []) ↔
      inputFields g (fresh g) r t = .ok [] := by
  have hdefine := fun d => define_input_eq_ok_iff h ht henum hk hr (d := d)
  constructor
  · intro hmap
    cases hmade : define g (fresh g) (.made r) with
    | error e =>
      rw [hmade] at hmap
      cases hmap
    | ok d =>
      rw [hmade] at hmap
      obtain ⟨made, hfields, rfl⟩ := (hdefine d).mp hmade
      cases hmap
      exact hfields
  · intro hfields
    rw [(hdefine _).mpr ⟨[], hfields, rfl⟩]
    rfl

end Fields

/-! ## Main result -/

/-- The decision to leave an input out can be told at any time of a run, and it decides whether there is such a type.
An input that is made has no field exactly where it is hollow, and all of its fields refer to types that exist. The
fields of an input that is left out are none, but for the inputs that need their parts: there one of them is missing.
So the decision tells whether there are fields where neither the input is hollow nor a part is missing. -/
theorem emptyInputs_iff {database : Database} {source : List Char} {types : List ModelType}
    (h : parse database source = .ok types) {t : ModelType} (ht : t ∈ types) (henum : t.isEnum = false)
    {r : Request} (hk : r.kind.isInput = true) (hr : r.subject = t.name) (hargs : Args.Own r.args)
    {c : Cache} (hc : c.Reached (.ofTypes types)) :
    ∃ empty : Bool,
      ((wouldBeEmpty (.ofTypes types) (answer (.ofTypes types)) r t).run c).1 = .ok empty ∧
      ((answer (.ofTypes types) r).run c).1 = .ok (if empty then none else some (.made r)) ∧
      (((inputFields (.ofTypes types) (answer (.ofTypes types)) r t).run c).1 = .ok [] ↔
        (empty = true ∧ r.kind.needsParts = false) ∨ isHollow (.ofTypes types) t r.kind = true) ∧
      (((define (.ofTypes types) (answer (.ofTypes types)) (.made r)).run c).1.map (·.body) =
          .ok (.inputObject []) ↔
        (empty = true ∧ r.kind.needsParts = false) ∨ isHollow (.ofTypes types) t r.kind = true) ∧
      ((∃ fields, ((inputFields (.ofTypes types) (answer (.ofTypes types)) r t).run c).1 = .ok fields ∧
          LacksPart fields) ↔ empty = true ∧ r.kind.needsParts = true) ∧
      ((((inputFields (.ofTypes types) (answer (.ofTypes types)) r t).run c).1 = .ok [] ↔ empty = true) ↔
        isHollow (.ofTypes types) t r.kind = false ∧ ¬(empty = true ∧ r.kind.needsParts = true)) := by
  have hwf := (wellFormed_of_parse h).ofTypes
  have hmem : t ∈ (TypeGraph.ofTypes types).types := by
    rw [TypeGraph.types_ofTypes (wellFormed_of_parse h).nodup_names]
    exact ht
  have hfields := inputFields_eq_nil_iff hwf hmem hk
  have hlacks := lacksPart_iff hwf hmem henum (r := r)
  rw [run_wouldBeEmpty hc, run_answer hc (proper_of_isInput hk hargs), run_inputFields hc, run_define hc,
    wouldBeEmpty_fresh hwf hmem hk, fresh_input hwf hmem hk hr,
    define_input_eq_nil_iff hwf hmem henum hk hr, hfields, hlacks]
  refine ⟨_, rfl, ?_, ?_⟩
  · cases offersInput (.ofTypes types) t r.args.required r.kind <;> rfl
  · cases hollow : isHollow (.ofTypes types) t r.kind with
    | true =>
      have hoffers : offersInput (.ofTypes types) t r.args.required r.kind = true :=
        offersInput_of_isHollow hollow
      simp [hoffers]
    | false =>
      cases offersInput (.ofTypes types) t r.args.required r.kind with
      | true => simp
      | false => cases r.kind.needsParts <;> simp

/-- A type whose only writable field refers to a dated item. -/
def referring : ModelType where
  name := "A"
  fields := [{ name := "b", typeName := "B" }]

/-- A type with nothing but the date of its creation. -/
def dated : ModelType where
  name := "B"
  fields := [{ name := "createdAt", typeName := "DateTime", isRequired := true, isReadOnly := true }]

/-- A dated item can neither be changed nor created, so the input that does one or the other is not made; its fields
would refer to inputs that do not exist. -/
theorem emptyInputs_upsert :
    parse .relational "type A { b: B } type B { createdAt: DateTime! }".toList =
        .ok [referring, dated] ∧
    dated ∈ [referring, dated] ∧ dated.isEnum = false ∧ Kind.isInput .upsertNested = true ∧
    (Request.of .upsertNested "B").subject = dated.name ∧ Args.Own (Request.of .upsertNested "B").args ∧
    Cache.Reached (.ofTypes [referring, dated]) {} ∧
    ((answer (.ofTypes [referring, dated]) (.of .upsertNested "B")).run {}).1 = .ok none ∧
    ((inputFields (.ofTypes [referring, dated]) (answer (.ofTypes [referring, dated]))
        (.of .upsertNested "B") dated).run {}).1 ≠ .ok [] ∧
    ∃ fields, ((inputFields (.ofTypes [referring, dated]) (answer (.ofTypes [referring, dated]))
        (.of .upsertNested "B") dated).run {}).1 = .ok fields ∧ LacksPart fields := by
  have hparse : parse .relational "type A { b: B } type B { createdAt: DateTime! }".toList =
      .ok [referring, dated] := rfl
  have hmem : dated ∈ [referring, dated] := List.mem_cons_of_mem _ List.mem_cons_self
  have hown : Args.Own (Request.of .upsertNested "B").args := Or.inl rfl
  obtain ⟨empty, htold, hanswer, hfields, _, hlacks, _⟩ :=
    emptyInputs_iff hparse hmem rfl (r := .of .upsertNested "B") rfl rfl hown .start
  have hempty : empty = true := by
    refine (Except.ok.inj (htold.symm.trans ?_) : empty = true)
    decide +kernel
  subst hempty
  refine ⟨hparse, hmem, rfl, rfl, rfl, hown, .start, hanswer, fun hnil => ?_, hlacks.mpr ⟨rfl, rfl⟩⟩
  rcases hfields.mp hnil with ⟨_, hneeds⟩ | hhollow
  · cases hneeds
  · cases hhollow

/-- The input that creates an item of the referring type is made, and it has no field. -/
theorem create_input_without_fields :
    parse .relational "type A { b: B } type B { createdAt: DateTime! }".toList =
        .ok [referring, dated] ∧
    ((wouldBeEmpty (.ofTypes [referring, dated]) (answer (.ofTypes [referring, dated]))
        (.of .create "A") referring).run {}).1 = .ok false ∧
    ((answer (.ofTypes [referring, dated]) (.of .create "A")).run {}).1 =
      .ok (some (.made (.of .create "A"))) ∧
    ((inputFields (.ofTypes [referring, dated]) (answer (.ofTypes [referring, dated]))
        (.of .create "A") referring).run {}).1 = .ok [] := by
  refine ⟨rfl, ?_, ?_, ?_⟩
  · decide +kernel
  · decide +kernel
  · decide +kernel

end OpenCrud.Generate
