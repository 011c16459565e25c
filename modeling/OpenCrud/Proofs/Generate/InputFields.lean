import OpenCrud.Proofs.Generate.References

/-!
# The fields of inputs are sound

Every generator of input fields has one lemma below. Two kinds of inputs put types under a modifier without a look
at whether there are any (`Kind.needsParts`); what they need is there because there would be no such input otherwise.
Main results: `yields_inputFields`, and `yields_inputNames` for inputs that are not made.
-/

namespace OpenCrud.Generate

open Datamodel
open MonadExcept (ofExcept)

section Fields

variable {g : TypeGraph} (h : WellFormed g.types)

include h

section OfField

variable {t : ModelType} (ht : t ∈ g.types) {f : ModelField} (hf : f ∈ t.fields)

include ht hf

/-! ## Filters -/

omit h ht hf in
/-- Filters stand under the name of their field with something behind it. -/
theorem sound_suffixed {name : String} (hname : isName name.toList = true) {suffixes : List String}
    (hsuffixes : ∀ s ∈ suffixes, s.toList.all isNameContinue = true) {e : TypeExpr Handle}
    (he : e.Sound (Handle.Valid g)) :
    (suffixed name suffixes e).Sound (InputField.Sound (Handle.Valid g)) := by
  intro entry hentry
  obtain ⟨s, hs, rfl⟩ := List.mem_map.mp hentry
  exact ⟨isName_append hname (hsuffixes s hs), he⟩

theorem yields_familyFilters (hleaf : isLeafOf g f = true) (family : FilterFamily) :
    Yields g (FieldMap.Sound (InputField.Sound (Handle.Valid g)))
      (familyFilters (fresh g) family f) := by
  refine (yields_leafType h ht hf hleaf).bind ?_
  rintro _ ⟨x, rfl, hx⟩
  refine yields_ok (sound_suffixed ((h.type t ht).field f hf).isName_name ?_ ?_)
  · cases family <;> decide
  · cases family with
    | inclusion => exact ⟨rfl, hx⟩
    | _ => exact hx

theorem yields_familiesFilters (hleaf : isLeafOf g f = true) (families : List FilterFamily) :
    Yields g (FieldMap.Sound (InputField.Sound (Handle.Valid g)))
      (familiesFilters (fresh g) families f) := by
  refine (Yields.mapM fun family _ => yields_familyFilters h ht hf hleaf family).bind ?_
  intro maps hmaps
  refine yields_ok (FieldMap.sound_merge fun map hmap => ?_)
  obtain ⟨filters, hfilters, heq⟩ := List.mem_map.mp hmap
  rw [← Option.some.inj heq]
  exact hmaps filters hfilters

/-- A list of scalars has no filter. -/
theorem yields_scalarFilters (hleaf : isLeafOf g f = true) :
    Yields g (fun made => ∀ map ∈ made, FieldMap.Sound (InputField.Sound (Handle.Valid g)) map)
      (scalarFilters g (fresh g) f) := by
  have hfamilies : ∀ families : List FilterFamily,
      Yields g (fun made => ∀ map ∈ made, FieldMap.Sound (InputField.Sound (Handle.Valid g)) map)
        (if f.isList then pure none else
          (familiesFilters (fresh g) families f >>= fun filters => pure (some filters))) := by
    intro families
    split
    · exact yields_ok nofun
    · refine (yields_familiesFilters h ht hf hleaf families).bind fun filters hfilters => ?_
      refine yields_ok fun map hmap => ?_
      cases hmap
      exact hfilters
  unfold scalarFilters
  rw [ofExcept_eq]
  rcases target_of_isLeafOf hleaf with ⟨s, htarget⟩ | ⟨u, htarget⟩
  · rw [htarget]
    exact hfamilies _
  · rw [htarget]
    exact hfamilies _

/-- A relation is filtered by the filter of what is related. -/
theorem yields_relationFilters (hleaf : isLeafOf g f = false) :
    Yields g (FieldMap.Sound (InputField.Sound (Handle.Valid g)))
      (relationFilters g (fresh g) f) := by
  obtain ⟨u, hu, henum, hrelated, _⟩ := target_of_isLeafOf_eq_false h ht hf hleaf
  have hfilters : ∀ suffixes : List String,
      (∀ s ∈ suffixes, s.toList.all isNameContinue = true) →
        Yields g (FieldMap.Sound (InputField.Sound (Handle.Valid g)))
          (relatedFilters g (fresh g) suffixes f) := by
    intro suffixes hsuffixes
    unfold relatedFilters
    rw [hrelated]
    refine (yields_whereInput h hu henum).bind fun x hx => yields_ok ?_
    exact sound_suffixed ((h.type t ht).field f hf).isName_name hsuffixes (sound_named hx)
  have hassert : assertRelation g f = .ok () := by
    rw [assertRelation, isLeafField_of_mem h ht hf, hleaf]
    rfl
  unfold relationFilters
  rw [ofExcept_eq, hassert, ok_bind]
  split
  · exact hfilters _ (by decide)
  · exact hfilters _ (by decide)

theorem yields_fieldFilters :
    Yields g (fun made => ∀ map ∈ made, FieldMap.Sound (InputField.Sound (Handle.Valid g)) map)
      (fieldFilters g (fresh g) f) := by
  unfold fieldFilters
  rw [ofExcept_eq, isLeafField_of_mem h ht hf, ok_bind]
  cases hleaf : isLeafOf g f with
  | true => exact yields_scalarFilters h ht hf hleaf
  | false =>
    refine (yields_relationFilters h ht hf hleaf).bind fun filters hfilters => ?_
    refine yields_ok fun map hmap => ?_
    cases hmap
    exact hfilters

end OfField

section OfType

variable {t : ModelType} (ht : t ∈ g.types)

include ht

/-- The filter of a type takes the filter itself behind its logical operators. -/
theorem yields_whereFields (henum : t.isEnum = false) :
    Yields g (FieldMap.Sound (InputField.Sound (Handle.Valid g))) (whereFields g (fresh g) t) := by
  refine (Yields.mapM fun f hf => yields_fieldFilters h ht hf).bind fun blocks hblocks => ?_
  refine (yields_whereInput h ht henum).bind fun x hx => ?_
  refine yields_ok (FieldMap.sound_merge fun map hmap => ?_)
  rcases List.mem_append.mp hmap with hmap | hmap
  · exact hblocks _ hmap map rfl
  · cases List.mem_singleton.mp hmap
    -- The operators stand without a field name in front.
    intro entry hentry
    obtain ⟨operator, hoperator, rfl⟩ := List.mem_map.mp hentry
    have hnames : ∀ operator ∈ logicalOperators, isName ("" ++ operator).toList = true := by decide
    exact ⟨hnames operator hoperator, rfl, hx⟩

/-! ## Nested operations -/

omit h ht in
/-- What is not there is not offered. -/
theorem sound_offered {candidates : List (String × Option Handle)}
    (hcandidates : ∀ c ∈ candidates, isName c.1.toList = true ∧ ∀ x ∈ c.2, x.Valid g) :
    (offered candidates).Sound (Handle.Valid g) := by
  intro entry hentry
  obtain ⟨c, hc, hmade⟩ := List.mem_filterMap.mp hentry
  obtain ⟨x, hx, rfl⟩ := Option.map_eq_some_iff.mp hmade
  exact ⟨(hcandidates c hc).1, (hcandidates c hc).2 x hx⟩

omit h ht in
/-- What is needed has to be there. -/
theorem sound_needed {parts : List (String × Option Handle)}
    (hparts : ∀ c ∈ parts, isName c.1.toList = true ∧ ∃ x, c.2 = some x ∧ x.Valid g) :
    (needed parts).Sound (Handle.Valid g) := by
  intro entry hentry
  obtain ⟨c, hc, rfl⟩ := List.mem_map.mp hentry
  obtain ⟨hname, x, hx, hvalid⟩ := hparts c hc
  rw [hx]
  exact ⟨hname, hvalid⟩

omit h ht in
theorem forall_mem_flagIf {b : Bool} : ∀ x ∈ flagIf b, x.Valid g := by
  cases b with
  | true =>
    rintro _ ⟨⟩
    exact .scalar .boolean
  | false => exact nofun

section Nested

variable (henum : t.isEnum = false)

include henum

omit h in
theorem valid_create (hwritable : isWritable t = true) : Handle.Valid g (.made (.of .create t.name)) :=
  valid_input ht henum (by decide : ("CreateInput", .create, .none) ∈ endings) rfl hwritable

omit h in
theorem valid_nestedUpdate (hwritable : isWritable t = true) :
    Handle.Valid g (.made ⟨.update, t.name, .isNested⟩) :=
  valid_input ht henum (by decide : ("UpdateDataInput", .update, .isNested) ∈ endings) rfl hwritable

omit h in
theorem valid_whereUnique (hselectable : isSelectable t = true) :
    Handle.Valid g (.made (.of .whereUnique t.name)) :=
  valid_input ht henum (by decide : ("WhereUniqueInput", .whereUnique, .none) ∈ endings) rfl hselectable

omit h in
/-- What can be connected can be selected. -/
theorem forall_mem_connect : ∀ x ∈ madeIf (isConnectable t) (.of .whereUnique t.name), x.Valid g :=
  forall_mem_madeIf fun hconnectable => valid_whereUnique ht henum (Bool.and_eq_true_iff.mp hconnectable).2

theorem yields_createOperations :
    Yields g (FieldMap.Sound (Handle.Valid g)) (createOperations (fresh g) t) := by
  refine yields_of_eq (createOperations_fresh h ht) (sound_offered ?_)
  simp only [List.forall_mem_cons]
  exact ⟨⟨by decide, forall_mem_madeIf (valid_create ht henum)⟩, ⟨by decide, forall_mem_connect ht henum⟩,
    nofun⟩

theorem yields_updateOneOperations (required : Bool) :
    Yields g (FieldMap.Sound (Handle.Valid g)) (updateOneOperations (fresh g) t required) := by
  have hupsert : isWritable t = true → Handle.Valid g (.made (.of .upsertNested t.name)) :=
    valid_input ht henum (by decide : ("UpsertNestedInput", .upsertNested, .none) ∈ endings) rfl
  refine yields_of_eq (updateOneOperations_fresh h ht required) (sound_offered ?_)
  simp only [List.forall_mem_cons]
  exact ⟨⟨by decide, forall_mem_madeIf (valid_create ht henum)⟩,
    ⟨by decide, forall_mem_madeIf (valid_nestedUpdate ht henum)⟩, ⟨by decide, forall_mem_madeIf hupsert⟩,
    ⟨by decide, forall_mem_flagIf⟩, ⟨by decide, forall_mem_flagIf⟩, ⟨by decide, forall_mem_connect ht henum⟩,
    nofun⟩

theorem yields_updateManyOperations :
    Yields g (FieldMap.Sound (Handle.Valid g)) (updateManyOperations (fresh g) t) := by
  have hupdate : (isSelectable t && isWritable t) = true →
      Handle.Valid g (.made (.of .updateWithWhereUnique t.name)) :=
    valid_input ht henum
      (by decide : ("UpdateWithWhereUniqueNestedInput", .updateWithWhereUnique, .none) ∈ endings) rfl
  refine yields_of_eq (updateManyOperations_fresh h ht) (sound_offered ?_)
  simp only [List.forall_mem_cons]
  exact ⟨⟨by decide, forall_mem_madeIf (valid_create ht henum)⟩, ⟨by decide, forall_mem_madeIf hupdate⟩,
    ⟨by decide, forall_mem_madeIf (valid_whereUnique ht henum)⟩, ⟨by decide, forall_mem_connect ht henum⟩,
    ⟨by decide, forall_mem_connect ht henum⟩, nofun⟩

/-- A change to one of many items has what selects the item and what to write, where there is such an input. -/
theorem yields_updateSelectedParts (hoffers : (isSelectable t && isWritable t) = true) :
    Yields g (fun parts => (needed parts).Sound (Handle.Valid g)) (updateSelectedParts (fresh g) t) := by
  obtain ⟨hselectable, hwritable⟩ := Bool.and_eq_true_iff.mp hoffers
  refine yields_of_eq (updateSelectedParts_fresh h ht) (sound_needed ?_)
  simp only [List.forall_mem_cons, madeIf, hselectable, hwritable, if_true]
  exact ⟨⟨by decide, _, rfl, valid_whereUnique ht henum hselectable⟩,
    ⟨by decide, _, rfl, valid_nestedUpdate ht henum hwritable⟩, nofun⟩

/-- So has a change to an item that may have to be created. -/
theorem yields_upsertParts (hwritable : isWritable t = true) :
    Yields g (fun parts => (needed parts).Sound (Handle.Valid g)) (upsertParts (fresh g) t) := by
  refine yields_of_eq (upsertParts_fresh h ht) (sound_needed ?_)
  simp only [List.forall_mem_cons, madeIf, hwritable, if_true]
  exact ⟨⟨by decide, _, rfl, valid_nestedUpdate ht henum hwritable⟩,
    ⟨by decide, _, rfl, valid_create ht henum hwritable⟩, nofun⟩

end Nested

/-! ## Inputs -/

omit h ht in
/-- A modifier that fits the types of operations makes sound fields of them. -/
theorem sound_operationFields {operations : Operations} {modify : TypeExpr Handle → TypeExpr Handle}
    (hmodify : ∀ x : Handle, x.Valid g → (modify (.named x)).Sound (Handle.Valid g))
    (hoperations : operations.Sound (Handle.Valid g)) :
    (operationFields modify operations).Sound (InputField.Sound (Handle.Valid g)) := by
  intro entry hentry
  obtain ⟨operation, hoperation, rfl⟩ := List.mem_map.mp hentry
  exact ⟨(hoperations operation hoperation).1, hmodify _ (hoperations operation hoperation).2⟩

omit h ht in
theorem yields_operationFields {operations : Except Error Operations}
    (modify : TypeExpr Handle → TypeExpr Handle)
    (hmodify : ∀ x : Handle, x.Valid g → (modify (.named x)).Sound (Handle.Valid g))
    (hoperations : Yields g (FieldMap.Sound (Handle.Valid g)) operations) :
    Yields g (FieldMap.Sound (InputField.Sound (Handle.Valid g)))
      (operations >>= fun operations => pure (operationFields modify operations)) :=
  hoperations.bind fun _ hsound => yields_ok (sound_operationFields hmodify hsound)

omit h ht in
theorem yields_neededFields {parts : Except Error (List (String × Option Handle))}
    (hparts : Yields g (fun parts => (needed parts).Sound (Handle.Valid g)) parts) :
    Yields g (FieldMap.Sound (InputField.Sound (Handle.Valid g)))
      (parts >>= fun parts => pure (operationFields .nonNull (needed parts))) :=
  hparts.bind fun _ hsound => yields_ok (sound_operationFields (fun _ hx => sound_nonNull hx) hsound)

/-- An entry of an input whose key is a name and whose value is sound. -/
def SoundInput (g : TypeGraph) (entry : String × InputField Handle) : Prop :=
  isName entry.1.toList = true ∧ entry.2.Sound (Handle.Valid g)

omit h ht in
theorem yields_mapInput {name : String} (hname : isName name.toList = true)
    {input : Except Error (Option Handle)} (modify : TypeExpr Handle → TypeExpr Handle)
    (hmodify : ∀ x : Handle, x.Valid g → (modify (.named x)).Sound (Handle.Valid g))
    (hinput : Yields g (fun made => ∀ x ∈ made, x.Valid g) input) :
    Yields g (fun made => ∀ entry ∈ made, SoundInput g entry)
      (input >>= fun made => pure (made.map fun x => (name, { type := modify (.named x) }))) := by
  refine hinput.bind fun made hmade => yields_ok fun entry hentry => ?_
  obtain ⟨x, hx, rfl⟩ := Option.map_eq_some_iff.mp hentry
  exact ⟨hname, hmodify x (hmade x hx)⟩

omit h ht in
theorem yields_someInput {name : String} (hname : isName name.toList = true)
    {type : Except Error (TypeExpr Handle)}
    (htype : Yields g (TypeExpr.Sound (Handle.Valid g)) type) :
    Yields g (fun made => ∀ entry ∈ made, SoundInput g entry)
      (type >>= fun e => pure (some (name, { type := e }))) := by
  refine htype.bind fun e he => yields_ok ?_
  rintro _ ⟨⟩
  exact ⟨hname, he⟩

/-- A relation is left out of a create input where its own input is missing. -/
theorem yields_createField {f : ModelField} (hf : f ∈ t.fields) :
    Yields g (fun made => ∀ entry ∈ made, SoundInput g entry) (createField g (fresh g) f) := by
  have hname := ((h.type t ht).field f hf).isName_name
  unfold createField
  rw [ofExcept_eq]
  cases hleaf : isLeafOf g f with
  | true =>
    rcases target_of_isLeafOf hleaf with ⟨s, htarget⟩ | ⟨u, htarget⟩
    · rw [htarget]
      exact yields_someInput hname (yields_inputType h ht hf hleaf)
    · rw [htarget]
      exact yields_someInput hname (yields_inputType h ht hf hleaf)
  | false =>
    obtain ⟨u, hu, henum, _, htarget⟩ := target_of_isLeafOf_eq_false h ht hf hleaf
    rw [htarget, ok_bind]
    dsimp only
    split
    · exact yields_mapInput hname id (fun _ hx => hx)
        (yields_input h hu henum (by decide : ("CreateManyInput", .createMany, .none) ∈ endings) rfl)
    · exact yields_mapInput hname (requiredIf f.isRequired) (fun _ hx => sound_requiredIf hx rfl)
        (yields_input h hu henum (by decide : ("CreateOneInput", .createOne, .none) ∈ endings) rfl)

/-- So it is of an update input, where the input tells whether the relation is required. -/
theorem yields_updateField {f : ModelField} (hf : f ∈ t.fields) :
    Yields g (fun made => ∀ entry ∈ made, SoundInput g entry) (updateField g (fresh g) f) := by
  have hname := ((h.type t ht).field f hf).isName_name
  unfold updateField
  rw [ofExcept_eq]
  cases hleaf : isLeafOf g f with
  | true =>
    have htype := (yields_optionalType h ht hf hleaf).mono fun _ he => he.1
    rcases target_of_isLeafOf hleaf with ⟨s, htarget⟩ | ⟨u, htarget⟩
    · rw [htarget]
      exact yields_someInput hname htype
    · rw [htarget]
      exact yields_someInput hname htype
  | false =>
    obtain ⟨u, hu, henum, _, htarget⟩ := target_of_isLeafOf_eq_false h ht hf hleaf
    have hrow : ∀ required : Bool, ∃ s, (s, .updateOne, .ofRequired required) ∈ endings := by
      intro required
      cases required with
      | true => exact ⟨"UpdateOneRequiredInput", by decide⟩
      | false => exact ⟨"UpdateOneInput", by decide⟩
    obtain ⟨_, hrow⟩ := hrow f.isRequired
    rw [htarget, ok_bind]
    dsimp only
    split
    · exact yields_mapInput hname id (fun _ hx => hx)
        (yields_input h hu henum (by decide : ("UpdateManyInput", .updateMany, .none) ∈ endings) rfl)
    · exact yields_mapInput hname id (fun _ hx => hx) (yields_input h hu henum hrow rfl)

omit h ht in
theorem yields_chosenFields {fields : List ModelField}
    {field : ModelField → Except Error (Option (String × InputField Handle))}
    (hfield : ∀ f ∈ fields, Yields g (fun made => ∀ entry ∈ made, SoundInput g entry) (field f)) :
    Yields g (FieldMap.Sound (InputField.Sound (Handle.Valid g)))
      (fields.mapM field >>= fun made => pure (.ofEntries (made.filterMap id))) := by
  refine (Yields.mapM hfield).bind fun made hmade => yields_ok (FieldMap.Sound.ofEntries ?_)
  intro entry hentry
  obtain ⟨field, hfield, heq⟩ := List.mem_filterMap.mp hentry
  exact hmade field hfield entry heq

theorem yields_optionalFields {fields : List ModelField} (hfields : fields ⊆ t.fields)
    (hleaf : ∀ f ∈ fields, isLeafOf g f = true) :
    Yields g (FieldMap.Sound (InputField.Sound (Handle.Valid g)))
      (fields.mapM (optionalField (fresh g)) >>= fun entries => pure (.ofEntries entries)) := by
  refine (Yields.mapM fun f hf => yields_optionalField h ht (hfields hf) (hleaf f hf)).bind ?_
  intro entries hentries
  exact yields_ok (FieldMap.Sound.ofEntries hentries)

/-- The kinds of inputs that have parts they cannot do without. -/
def Kind.needsParts : Kind → Bool
  | .updateWithWhereUnique | .upsertNested => true
  | _ => false

/-- The fields of an input are sound. Where it needs its parts, that takes that there is such an input. -/
theorem yields_inputFields (henum : t.isEnum = false) {r : Request}
    (hoffers : r.kind.needsParts = true → offersInput g t r.args.required r.kind = true) :
    Yields g (FieldMap.Sound (InputField.Sound (Handle.Valid g))) (inputFields g (fresh g) r t) := by
  have hcreate := yields_createOperations h ht henum
  have hupdateMany := yields_updateManyOperations h ht henum
  have hlist : ∀ x : Handle, x.Valid g → (listOf (.named x)).Sound (Handle.Valid g) :=
    fun _ hx => sound_nonNull hx
  unfold inputFields
  split
  · exact yields_whereFields h ht henum
  · unfold whereUniqueFields
    rw [ofExcept_eq, uniqueFields_eq h ht, ok_bind]
    refine yields_optionalFields h ht (List.filter_subset_self _) fun f hf => ?_
    exact isLeafOf_of_isUnique h ht (List.mem_filter.mp hf).1 (List.mem_filter.mp hf).2
  · exact yields_chosenFields fun f hf => yields_createField h ht (List.mem_filter.mp hf).1
  · exact yields_chosenFields fun f hf => yields_updateField h ht (List.mem_filter.mp hf).1
  · unfold updateManyMutationFields
    rw [ofExcept_eq, writableLeafFields_eq h ht, ok_bind]
    refine yields_optionalFields h ht ?_ fun f hf => (List.mem_filter.mp hf).2
    exact List.Subset.trans (List.filter_subset_self _) (List.filter_subset_self _)
  · exact yields_operationFields id (fun _ hx => hx) hcreate
  · exact yields_operationFields listOf hlist hcreate
  · exact yields_operationFields id (fun _ hx => hx) (yields_updateOneOperations h ht henum _)
  · exact yields_operationFields listOf hlist hupdateMany
  -- Only the last two need their parts, so only for them it matters that the input is made.
  · rename_i hkind
    rw [hkind] at hoffers
    exact yields_neededFields (yields_updateSelectedParts h ht henum (hoffers rfl))
  · rename_i hkind
    rw [hkind] at hoffers
    exact yields_neededFields (yields_upsertParts h ht henum (hoffers rfl))
  · exact yields_ok FieldMap.sound_nil

/-! ## Inputs that are not made -/

omit h ht in
theorem sound_neededNames {parts : List (String × Option Handle)}
    (hnames : ∀ name ∈ parts.map Prod.fst, isName name.toList = true) :
    FieldMap.Sound (fun _ => True) (operationFields .nonNull (needed parts)) := by
  intro entry hentry
  obtain ⟨operation, hoperation, rfl⟩ := List.mem_map.mp hentry
  obtain ⟨part, hpart, rfl⟩ := List.mem_map.mp hoperation
  exact ⟨hnames _ (List.mem_map_of_mem hpart), trivial⟩

/-- Whether an input is made or not, its fields have names. -/
theorem yields_inputNames (henum : t.isEnum = false) (r : Request) :
    Yields g (FieldMap.Sound fun _ => True) (inputFields g (fresh g) r t) := by
  cases hneeds : r.kind.needsParts with
  | false =>
    refine (yields_inputFields h ht henum fun hc => absurd (hneeds.symm.trans hc) Bool.false_ne_true).mono ?_
    exact fun fields hfields entry hentry => ⟨(hfields entry hentry).1, trivial⟩
  | true =>
    unfold inputFields
    cases hkind : r.kind with
    | updateWithWhereUnique =>
      rw [updateSelectedParts_fresh h ht]
      exact yields_ok (sound_neededNames
        (by decide : ∀ name ∈ ["where", "data"], isName name.toList = true))
    | upsertNested =>
      rw [upsertParts_fresh h ht]
      exact yields_ok (sound_neededNames
        (by decide : ∀ name ∈ ["update", "create"], isName name.toList = true))
    | _ =>
      rw [hkind] at hneeds
      cases hneeds

end OfType

end Fields

end OpenCrud.Generate
