import OpenCrud.Proofs.Generate.EmptyInputs
import OpenCrud.Proofs.Generate.Selectors

/-!
# What can be written

The inputs that create and update items have a field for each field of their type that can be written, unless there
is nothing that could be given for it. Main result: these inputs have no other fields, and those that they have are in
order; what must be given is what is required and has no other way to come about; and the input that changes many
items is the part with scalars and enums of the one that changes one (`writableInputs_of_parse`).

None of these inputs can be looked at where a field that can be written points at an enum called like a type by which
schemas describe themselves (`WritesFree`).
-/

namespace OpenCrud.Generate

open Datamodel
open MonadExcept (ofExcept)

/-! ## Fields by what they point at -/

/-- The values of a scalar or enum field. -/
def leafValue (g : TypeGraph) (f : ModelField) : TypeExpr Handle :=
  if f.isList then listOf (.named (leafOf g f)) else .named (leafOf g f)

/-- What is given for a field when an item is created. -/
def createType (g : TypeGraph) (f : ModelField) : TypeExpr Handle :=
  if isLeafOf g f then requiredIf (f.isRequired && f.defaultValue.isNone) (leafValue g f)
  else if f.isList then .named (.made (.of .createMany f.typeName))
  else requiredIf f.isRequired (.named (.made (.of .createOne f.typeName)))

/-- What is given for a field when an item is updated. -/
def updateType (g : TypeGraph) (f : ModelField) : TypeExpr Handle :=
  if isLeafOf g f then leafValue g f
  else if f.isList then .named (.made (.of .updateMany f.typeName))
  else .named (.made ⟨.updateOne, f.typeName, .ofRequired f.isRequired⟩)

/-- The fields of an input for some fields of a type. -/
def fieldsFor (type : ModelField → TypeExpr Handle) (fields : List ModelField) : FieldMap (InputField Handle) :=
  fields.map fun f => (f.name, { type := type f })

/-- The fields that can be written, without those that an input drops. -/
def keptFields (drops : ModelField → Bool) (t : ModelType) : List ModelField :=
  (writableFields t).filter fun f => !drops f

/-- That the scalars and enums of all fields that can be written can be asked for. -/
def WritesFree (g : TypeGraph) (t : ModelType) : Prop :=
  ∀ f ∈ writableFields t, isLeafOf g f = true → f.typeName ∉ introspectionNames

/-- The fields of an input at some time of a run, if they can be worked out. -/
def inputAt (g : TypeGraph) (c : Cache) (r : Request) : Option (FieldMap (InputField Handle)) :=
  match ((define g (answer g) (.made r)).run c).1 with
  | .ok { body := .inputObject fields _, .. } => some fields
  | _ => none

/-- The requests for the inputs that set fields of one item or of many. -/
def writeRequests (t : ModelType) : List Request :=
  [.of .create t.name, .of .update t.name, ⟨.update, t.name, .isNested⟩, .of .updateManyMutation t.name]

/-- Whether a type is a scalar or an enum, or a list of such. -/
def isLeafType (e : TypeExpr Handle) : Bool :=
  match e.base.category with
  | .scalar | .enum => true
  | _ => false

/-- The fields of an input that take scalars and enums. -/
def leafPart (fields : FieldMap (InputField Handle)) : FieldMap (InputField Handle) :=
  fields.filter fun entry => isLeafType entry.2.type

/-- What the inputs that set fields of a type have in them. -/
structure WritableInputs (g : TypeGraph) (c : Cache) (t : ModelType) : Prop where
  named : (writeRequests t).map Request.typeName = [t.name ++ "CreateInput", t.name ++ "UpdateInput",
    t.name ++ "UpdateDataInput", t.name ++ "UpdateManyMutationInput"]
  resolved : ∀ r ∈ writeRequests t, (inputAt g c r).isSome = true ↔ WritesFree g t
  writable : ∀ r ∈ writeRequests t, ∀ fields ∈ inputAt g c r,
    ∀ f ∈ t.fields, f.isReadOnly = true → f.name ∉ fields.map Prod.fst
  ordered : ∀ r ∈ writeRequests t, ∀ fields ∈ inputAt g c r, (fields.map Prod.fst).Sublist (t.fields.map (·.name))
  created : ∀ fields ∈ inputAt g c (.of .create t.name),
    fields.map Prod.fst = (keptFields (dropsOnCreate g) t).map (·.name)
  required : ∀ fields ∈ inputAt g c (.of .create t.name), ∀ f ∈ t.fields, ∀ input, (f.name, input) ∈ fields →
    (input.type.isNonNull = true ↔ f.isRequired = true ∧
      (isLeafOf g f = true ∧ f.defaultValue = none ∨ isLeafOf g f = false ∧ f.isList = false))
  updated : ∀ fields ∈ inputAt g c (.of .update t.name),
    fields.map Prod.fst = (keptFields (dropsOnUpdate g) t).map (·.name)
  nested : inputAt g c ⟨.update, t.name, .isNested⟩ = inputAt g c (.of .update t.name)
  nullable : ∀ fields ∈ inputAt g c (.of .update t.name), ∀ entry ∈ fields, entry.2.type.isNonNull = false
  many : inputAt g c (.of .updateManyMutation t.name) = (inputAt g c (.of .update t.name)).map leafPart
  answered : ∃ isMade : Bool, ((answer g (.of .updateManyMutation t.name)).run c).1 =
      .ok (madeIf isMade (.of .updateManyMutation t.name)) ∧
    (isMade = false ↔ (inputAt g c (.of .update t.name)).map leafPart = some [])

theorem keys_fieldsFor (type : ModelField → TypeExpr Handle) (fields : List ModelField) :
    (fieldsFor type fields).map Prod.fst = fields.map (·.name) := by
  rw [fieldsFor, List.map_map]
  rfl

/-- Items chosen one by one are the chosen items. -/
theorem filterMap_id_map_ite {α β : Type} (p : α → Bool) (k : α → β) (l : List α) :
    (l.map fun a => if p a then none else some (k a)).filterMap id = (l.filter fun a => !p a).map k := by
  rw [List.filterMap_map, ← List.filterMap_eq_map, List.filterMap_filter]
  refine List.filterMap_congr fun a _ => ?_
  show (if p a = true then none else some (k a)) = _
  cases p a <;> rfl

section Fields

variable {g : TypeGraph} (h : WellFormed g.types) {t : ModelType} (ht : t ∈ g.types)

include h ht

theorem optionalType_fresh {f : ModelField} (hf : f ∈ t.fields) (hleaf : isLeafOf g f = true) :
    optionalType (fresh g) f = if f.typeName ∈ introspectionNames then .error (.badTypeName (.reserved f.typeName))
      else .ok (leafValue g f) := by
  rw [optionalType, (leafType_fresh h ht hf hleaf).2]
  split <;> rfl

omit ht in
/-- A field of an input for which another input is asked. -/
theorem askedField_eq_ok_iff {u : ModelType} (hu : u ∈ g.types) {r : Request} (hk : r.kind.isInput = true)
    (hr : r.subject = u.name) {offers : Bool} (hoffers : offersInput g u r.args.required r.kind = offers)
    {entry : Handle → String × InputField Handle} {e : Option (String × InputField Handle)} :
    (fresh g r >>= fun made => pure (made.map entry)) = .ok e ↔
      e = if (!offers) = true then none else some (entry (.made r)) := by
  rw [fresh_input h hu hk hr, hoffers]
  cases offers with
  | true => exact ⟨fun heq => (Except.ok.inj heq).symm, fun heq => heq ▸ rfl⟩
  | false => exact ⟨fun heq => (Except.ok.inj heq).symm, fun heq => heq ▸ rfl⟩

theorem relation_of_isLeafOf_eq_false {f : ModelField} (hf : f ∈ t.fields) (hleaf : isLeafOf g f = false) :
    ∃ u ∈ g.types, f.typeName = u.name ∧ target g f = .ok (.relation u) := by
  obtain ⟨u, hu, _, hrelated, htarget⟩ := target_of_isLeafOf_eq_false h ht hf hleaf
  exact ⟨u, hu, (TypeGraph.mem_of_find? hrelated).2.symm, htarget⟩

/-- A field of an input for a scalar or enum field. -/
theorem leafField_eq_ok_iff {f : ModelField} (hf : f ∈ t.fields) (hleaf : isLeafOf g f = true)
    (modify : TypeExpr Handle → TypeExpr Handle) {e : Option (String × InputField Handle)} :
    (optionalType (fresh g) f >>= fun x => pure (some (f.name, { type := modify x }))) = .ok e ↔
      f.typeName ∉ introspectionNames ∧ e = some (f.name, { type := modify (leafValue g f) }) := by
  rw [optionalType_fresh h ht hf hleaf]
  split
  · rename_i htaken
    refine iff_of_false (fun heq => ?_) fun hc => hc.1 htaken
    cases heq
  · rename_i hfree
    exact ⟨fun heq => ⟨hfree, (Except.ok.inj heq).symm⟩, fun heq => heq.2 ▸ rfl⟩

theorem createField_eq_ok_iff {f : ModelField} (hf : f ∈ t.fields) (e : Option (String × InputField Handle)) :
    createField g (fresh g) f = .ok e ↔ (isLeafOf g f = true → f.typeName ∉ introspectionNames) ∧
      e = if dropsOnCreate g f then none else some (f.name, { type := createType g f }) := by
  unfold createField dropsOnCreate createType
  rw [ofExcept_eq]
  cases hleaf : isLeafOf g f with
  | true =>
    have hfield := leafField_eq_ok_iff h ht hf hleaf (requiredIf (f.isRequired && f.defaultValue.isNone)) (e := e)
    rcases target_of_isLeafOf hleaf with ⟨s, htarget⟩ | ⟨u, htarget⟩
    · rw [htarget, ok_bind]
      simpa [inputType] using hfield
    · rw [htarget, ok_bind]
      simpa [inputType] using hfield
  | false =>
    obtain ⟨u, hu, hname, htarget⟩ := relation_of_isLeafOf_eq_false h ht hf hleaf
    rw [htarget, ok_bind, hname, if_neg Bool.false_ne_true]
    refine Iff.trans ?_ (and_iff_right nofun).symm
    dsimp only
    cases f.isList with
    | true => exact askedField_eq_ok_iff h hu (r := .of .createMany u.name) rfl rfl rfl
    | false => exact askedField_eq_ok_iff h hu (r := .of .createOne u.name) rfl rfl rfl

theorem updateField_eq_ok_iff {f : ModelField} (hf : f ∈ t.fields) (e : Option (String × InputField Handle)) :
    updateField g (fresh g) f = .ok e ↔ (isLeafOf g f = true → f.typeName ∉ introspectionNames) ∧
      e = if dropsOnUpdate g f then none else some (f.name, { type := updateType g f }) := by
  unfold updateField dropsOnUpdate updateType
  rw [ofExcept_eq]
  cases hleaf : isLeafOf g f with
  | true =>
    have hfield := leafField_eq_ok_iff h ht hf hleaf id (e := e)
    rcases target_of_isLeafOf hleaf with ⟨s, htarget⟩ | ⟨u, htarget⟩
    · rw [htarget, ok_bind]
      simpa using hfield
    · rw [htarget, ok_bind]
      simpa using hfield
  | false =>
    obtain ⟨u, hu, hname, htarget⟩ := relation_of_isLeafOf_eq_false h ht hf hleaf
    rw [htarget, ok_bind, hname, if_neg Bool.false_ne_true]
    refine Iff.trans ?_ (and_iff_right nofun).symm
    dsimp only
    cases f.isList with
    | true => exact askedField_eq_ok_iff h hu (r := .of .updateMany u.name) rfl rfl rfl
    | false => exact askedField_eq_ok_iff h hu (r := ⟨.updateOne, u.name, .ofRequired f.isRequired⟩) rfl rfl rfl

/-! ## Fields of the inputs -/

/-- What is chosen of the fields that can be written. -/
theorem chosenFields_eq_ok_iff {field : ModelField → Except Error (Option (String × InputField Handle))}
    {drops : ModelField → Bool} {type : ModelField → TypeExpr Handle}
    (hfield : ∀ f ∈ t.fields, ∀ e, field f = .ok e ↔ (isLeafOf g f = true → f.typeName ∉ introspectionNames) ∧
      e = if drops f then none else some (f.name, { type := type f })) {fields : FieldMap (InputField Handle)} :
    ((writableFields t).mapM field >>= fun made => pure (FieldMap.ofEntries (made.filterMap id))) = .ok fields ↔
      WritesFree g t ∧ fields = fieldsFor type (keptFields drops t) := by
  have hmade : ∀ made, (writableFields t).mapM field = .ok made ↔ WritesFree g t ∧
      made = (writableFields t).map fun f => if drops f then none else some (f.name, { type := type f }) :=
    fun made => mapM_eq_ok_iff fun f hf => hfield f (List.mem_filter.mp hf).1
  have hkept : FieldMap.ofEntries (((writableFields t).map fun f =>
      if drops f then none else some (f.name, ({ type := type f } : InputField Handle))).filterMap id) =
        fieldsFor type (keptFields drops t) := by
    rw [filterMap_id_map_ite]
    refine FieldMap.ofEntries_of_nodup ?_
    rw [List.map_map]
    exact (h.type t ht).nodup_fields.sublist ((List.filter_sublist.trans List.filter_sublist).map _)
  simp only [bind_eq_ok_iff, hmade]
  constructor
  · rintro ⟨_, ⟨hfree, rfl⟩, hfields⟩
    exact ⟨hfree, (Except.ok.inj hfields).symm.trans hkept⟩
  · rintro ⟨hfree, rfl⟩
    exact ⟨_, ⟨hfree, rfl⟩, congrArg Except.ok hkept⟩

theorem updateManyMutationFields_eq_ok_iff {fields : FieldMap (InputField Handle)} :
    updateManyMutationFields g (fresh g) t = .ok fields ↔
      WritesFree g t ∧ fields = fieldsFor (leafValue g) ((writableFields t).filter (isLeafOf g)) := by
  have hsublist : ((writableFields t).filter (isLeafOf g)).Sublist t.fields :=
    List.filter_sublist.trans List.filter_sublist
  rw [updateManyMutationFields, writableLeafFields_eq h ht, ofExcept_eq, ok_bind,
    optionalFields_eq_ok_iff h ht hsublist fun _ hf => (List.mem_filter.mp hf).2]
  simp only [List.mem_filter (p := isLeafOf g), and_imp]
  exact Iff.rfl

end Fields

/-! ## Parts of the inputs -/

section Parts

variable {g : TypeGraph}

theorem isNonNull_leafValue (f : ModelField) : (leafValue g f).isNonNull = false := by
  unfold leafValue
  split <;> rfl

theorem isNonNull_requiredIf {e : TypeExpr Handle} (he : e.isNonNull = false) (required : Bool) :
    (requiredIf required e).isNonNull = required := by
  cases required with
  | true => rfl
  | false => exact he

/-- What is given for a field must be given where the field is required and has no other way to come about. -/
theorem isNonNull_createType_iff (f : ModelField) : (createType g f).isNonNull = true ↔ f.isRequired = true ∧
    (isLeafOf g f = true ∧ f.defaultValue = none ∨ isLeafOf g f = false ∧ f.isList = false) := by
  unfold createType
  cases hleaf : isLeafOf g f with
  | true =>
    rw [if_pos rfl, isNonNull_requiredIf (isNonNull_leafValue f)]
    simp
  | false =>
    rw [if_neg Bool.false_ne_true]
    cases hlist : f.isList with
    | true => simp [TypeExpr.isNonNull]
    | false =>
      rw [if_neg Bool.false_ne_true, isNonNull_requiredIf rfl]
      simp

theorem isNonNull_updateType (f : ModelField) : (updateType g f).isNonNull = false := by
  unfold updateType
  split
  · exact isNonNull_leafValue f
  · split <;> rfl

theorem base_leafValue (f : ModelField) : (leafValue g f).base = leafOf g f := by
  unfold leafValue
  split <;> rfl

/-- Scalars and enums are what is given for the fields that point at such. -/
theorem isLeafType_updateType (f : ModelField) : isLeafType (updateType g f) = isLeafOf g f := by
  unfold updateType
  cases hleaf : isLeafOf g f with
  | true =>
    rw [if_pos rfl, isLeafType, base_leafValue, leafOf]
    rcases target_of_isLeafOf hleaf with ⟨s, htarget⟩ | ⟨u, htarget⟩
    · rw [htarget]
      rfl
    · rw [htarget]
      rfl
  | false =>
    rw [if_neg Bool.false_ne_true]
    split <;> rfl

theorem dropsOnUpdate_of_isLeafOf {f : ModelField} (hleaf : isLeafOf g f = true) : dropsOnUpdate g f = false := by
  unfold dropsOnUpdate
  rcases target_of_isLeafOf hleaf with ⟨s, htarget⟩ | ⟨u, htarget⟩
  · rw [htarget]
  · rw [htarget]

/-- The part with scalars and enums of what updates an item. -/
theorem leafPart_fieldsFor (t : ModelType) : leafPart (fieldsFor (updateType g) (keptFields (dropsOnUpdate g) t)) =
    fieldsFor (leafValue g) ((writableFields t).filter (isLeafOf g)) := by
  have hsame : (keptFields (dropsOnUpdate g) t).filter (fun f => isLeafType (updateType g f)) =
      (writableFields t).filter (isLeafOf g) := by
    rw [keptFields, List.filter_filter]
    refine List.filter_congr fun f _ => ?_
    rw [isLeafType_updateType]
    cases hleaf : isLeafOf g f with
    | true => rw [dropsOnUpdate_of_isLeafOf hleaf]; rfl
    | false => rfl
  rw [leafPart, fieldsFor, List.filter_map]
  show ((keptFields (dropsOnUpdate g) t).filter fun f => isLeafType (updateType g f)).map _ = _
  rw [hsame]
  refine List.map_congr_left fun f hf => ?_
  rw [updateType, if_pos (List.mem_filter.mp hf).2]

end Parts

section Inputs

variable {g : TypeGraph} (h : WellFormed g.types) {t : ModelType} (ht : t ∈ g.types) (henum : t.isEnum = false)
  {c : Cache} (hc : c.Reached g)

include h ht henum hc

/-- The fields of an input can be worked out at any time where they can be at all. -/
theorem inputAt_eq_some_iff {r : Request} (hk : r.kind.isInput = true) (hr : r.subject = t.name)
    {fields : FieldMap (InputField Handle)} :
    inputAt g c r = some fields ↔ inputFields g (fresh g) r t = .ok fields := by
  have hdefine := fun d => define_input_eq_ok_iff h ht henum hk hr (d := d)
  unfold inputAt
  rw [run_define hc]
  cases hmade : inputFields g (fresh g) r t with
  | ok made =>
    rw [(hdefine _).mpr ⟨made, hmade, rfl⟩]
    exact ⟨fun heq => congrArg Except.ok (Option.some.inj heq), fun heq => congrArg some (Except.ok.inj heq)⟩
  | error e =>
    split
    · rename_i hd
      obtain ⟨made, hfields, _⟩ := (hdefine _).mp hd
      cases hmade.symm.trans hfields
    · refine iff_of_false (fun heq => ?_) fun heq => ?_
      · cases heq
      · cases heq

theorem createAt_eq_some_iff {fields : FieldMap (InputField Handle)} : inputAt g c (.of .create t.name) = some fields ↔
    WritesFree g t ∧ fields = fieldsFor (createType g) (keptFields (dropsOnCreate g) t) := by
  rw [inputAt_eq_some_iff h ht henum hc rfl rfl]
  exact chosenFields_eq_ok_iff h ht fun f hf => createField_eq_ok_iff h ht hf

theorem updateAt_eq_some_iff {a : Args} {fields : FieldMap (InputField Handle)} :
    inputAt g c ⟨.update, t.name, a⟩ = some fields ↔
      WritesFree g t ∧ fields = fieldsFor (updateType g) (keptFields (dropsOnUpdate g) t) := by
  rw [inputAt_eq_some_iff h ht henum hc rfl rfl]
  exact chosenFields_eq_ok_iff h ht fun f hf => updateField_eq_ok_iff h ht hf

theorem manyAt_eq_some_iff {fields : FieldMap (InputField Handle)} :
    inputAt g c (.of .updateManyMutation t.name) = some fields ↔
      WritesFree g t ∧ fields = fieldsFor (leafValue g) ((writableFields t).filter (isLeafOf g)) := by
  rw [inputAt_eq_some_iff h ht henum hc rfl rfl]
  exact updateManyMutationFields_eq_ok_iff h ht

/-- Each of the inputs has fields for some of those that can be written, wherever it can be worked out. -/
theorem exists_writeAt {r : Request} (hr : r ∈ writeRequests t) : ∃ type l, l.Sublist (writableFields t) ∧
    ∀ fields, inputAt g c r = some fields ↔ WritesFree g t ∧ fields = fieldsFor type l := by
  simp only [writeRequests, List.mem_cons, List.not_mem_nil, or_false] at hr
  rcases hr with rfl | rfl | rfl | rfl
  · exact ⟨_, _, List.filter_sublist, fun _ => createAt_eq_some_iff h ht henum hc⟩
  · exact ⟨_, _, List.filter_sublist, fun _ => updateAt_eq_some_iff h ht henum hc⟩
  · exact ⟨_, _, List.filter_sublist, fun _ => updateAt_eq_some_iff h ht henum hc⟩
  · exact ⟨_, _, List.filter_sublist, fun _ => manyAt_eq_some_iff h ht henum hc⟩

theorem manyAt_eq : inputAt g c (.of .updateManyMutation t.name) = (inputAt g c (.of .update t.name)).map leafPart := by
  refine Option.ext fun fields => ?_
  rw [Option.map_eq_some_iff, manyAt_eq_some_iff h ht henum hc]
  constructor
  · rintro ⟨hfree, rfl⟩
    exact ⟨_, (updateAt_eq_some_iff h ht henum hc).mpr ⟨hfree, rfl⟩, leafPart_fieldsFor t⟩
  · rintro ⟨_, hupdate, rfl⟩
    obtain ⟨hfree, rfl⟩ := (updateAt_eq_some_iff h ht henum hc).mp hupdate
    exact ⟨hfree, leafPart_fieldsFor t⟩

/-- There is an input that changes many items where it has a field. -/
theorem offersInput_many_iff : offersInput g t false .updateManyMutation = false ↔
    (inputAt g c (.of .update t.name)).map leafPart = some [] := by
  rw [← manyAt_eq h ht henum hc, inputAt_eq_some_iff h ht henum hc rfl rfl,
    inputFields_eq_nil_iff_offersInput h ht rfl rfl]
  exact (or_iff_left Bool.false_ne_true).symm

theorem isNonNull_createAt_iff {fields : FieldMap (InputField Handle)}
    (hfields : inputAt g c (.of .create t.name) = some fields) {f : ModelField} (hf : f ∈ t.fields)
    {input : InputField Handle} (hinput : (f.name, input) ∈ fields) :
    input.type.isNonNull = true ↔ f.isRequired = true ∧
      (isLeafOf g f = true ∧ f.defaultValue = none ∨ isLeafOf g f = false ∧ f.isList = false) := by
  obtain ⟨_, rfl⟩ := (createAt_eq_some_iff h ht henum hc).mp hfields
  obtain ⟨f', hf', heq⟩ := List.mem_map.mp hinput
  obtain ⟨hname, rfl⟩ := Prod.mk.inj heq
  have hmem : f' ∈ t.fields := (List.filter_sublist.trans List.filter_sublist).subset hf'
  obtain rfl : f' = f := List.inj_on_of_nodup_map (h.type t ht).nodup_fields hmem hf hname
  exact isNonNull_createType_iff f'

theorem writableInputs : WritableInputs g c t where
  named := rfl
  resolved r hr := by
    obtain ⟨_, _, _, hfields⟩ := exists_writeAt h ht henum hc hr
    rw [Option.isSome_iff_exists]
    exact ⟨fun ⟨fields, hc⟩ => ((hfields fields).mp hc).1, fun hfree => ⟨_, (hfields _).mpr ⟨hfree, rfl⟩⟩⟩
  writable r hr fields hat f hf hreadOnly hc' := by
    obtain ⟨_, l, hl, hfields⟩ := exists_writeAt h ht henum hc hr
    obtain ⟨_, rfl⟩ := (hfields fields).mp hat
    rw [keys_fieldsFor] at hc'
    obtain ⟨f', hf', hname⟩ := List.mem_map.mp hc'
    obtain ⟨hmem, hwritable⟩ := List.mem_filter.mp (hl.subset hf')
    obtain rfl : f' = f := List.inj_on_of_nodup_map (h.type t ht).nodup_fields hmem hf hname
    rw [hreadOnly] at hwritable
    cases hwritable
  ordered r hr fields hat := by
    obtain ⟨_, l, hl, hfields⟩ := exists_writeAt h ht henum hc hr
    obtain ⟨_, rfl⟩ := (hfields fields).mp hat
    rw [keys_fieldsFor]
    exact (hl.trans List.filter_sublist).map _
  created fields hat := by
    obtain ⟨_, rfl⟩ := (createAt_eq_some_iff h ht henum hc).mp hat
    exact keys_fieldsFor _ _
  required fields hat f hf input := isNonNull_createAt_iff h ht henum hc hat hf
  updated fields hat := by
    obtain ⟨_, rfl⟩ := (updateAt_eq_some_iff h ht henum hc).mp hat
    exact keys_fieldsFor _ _
  nested := Option.ext fun fields =>
    (updateAt_eq_some_iff h ht henum hc).trans (updateAt_eq_some_iff h ht henum hc).symm
  nullable fields hat := by
    obtain ⟨_, rfl⟩ := (updateAt_eq_some_iff h ht henum hc).mp hat
    exact List.forall_mem_map.mpr fun f _ => isNonNull_updateType f
  many := manyAt_eq h ht henum hc
  answered := ⟨_, (run_answer hc ⟨.inl rfl, fun hshared => by cases hshared⟩).trans (fresh_input h ht rfl rfl),
    offersInput_many_iff h ht henum hc⟩

end Inputs

/-! ## Main result -/

/-- At any time of a run, the inputs that set fields of a type have in them what they are to have. -/
theorem writableInputs_of_parse {database : Database} {source : List Char} {types : List ModelType}
    (h : parse database source = .ok types) {t : ModelType} (ht : t ∈ types) (henum : t.isEnum = false)
    {c : Cache} (hc : c.Reached (.ofTypes types)) : WritableInputs (.ofTypes types) c t := by
  have hwf := wellFormed_of_parse h
  have htypes := TypeGraph.types_ofTypes hwf.nodup_names
  exact writableInputs hwf.ofTypes (htypes.symm ▸ ht) henum hc

/-- A type with a field that is read-only, one with a default value, and others that are required. -/
def postSource : List Char :=
  "type Post { id: ID! title: String! state: State! @default(value: A) tags: [String!]! author: User! posts: [Post] }".toList ++
    " type User { id: ID! } enum State { A }".toList

/-- Its title, its tags and its author must be given. -/
theorem writableInputs_post : ∃ types t, parse .relational postSource = .ok types ∧ t ∈ types ∧ t.isEnum = false ∧
    Cache.Reached (.ofTypes types) {} ∧ WritableInputs (.ofTypes types) {} t ∧
    (inputAt (.ofTypes types) {} (.of .create t.name)).map (·.map fun entry => (entry.1, entry.2.type.isNonNull)) =
      some [("title", true), ("state", false), ("tags", true), ("author", true), ("posts", false)] := by
  obtain ⟨types, hparse, hany⟩ := exists_ok_of_any
    (p := fun types => types.any fun t => decide (t.isEnum = false ∧
      (inputAt (.ofTypes types) {} (.of .create t.name)).map (·.map fun entry => (entry.1, entry.2.type.isNonNull)) =
        some [("title", true), ("state", false), ("tags", true), ("author", true), ("posts", false)]))
    (show (parse .relational postSource).toOption.any _ = true by decide +kernel)
  obtain ⟨t, ht, hp⟩ := List.any_eq_true.mp hany
  obtain ⟨henum, hfields⟩ := of_decide_eq_true hp
  exact ⟨types, t, hparse, ht, henum, .start, writableInputs_of_parse hparse ht henum .start, hfields⟩

end OpenCrud.Generate
