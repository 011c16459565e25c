import OpenCrud.Proofs.FieldMap
import OpenCrud.Proofs.Generate.TypeName

/-!
# Answers in an accepted datamodel

The answer to every request that a run can make, read off the datamodel. Objects and enums take their names
from the datamodel, so only their names can be taken already; all other names are free. Inputs exist where
there is something to write or to select by (`fresh_input`).
-/

namespace OpenCrud.Generate

open Datamodel
open MonadExcept (ofExcept)

/-- A result by itself needs no other monad to be given in. -/
theorem ofExcept_eq {α : Type} (x : Except Error α) : (ofExcept x : Except Error α) = x := by
  cases x <;> rfl

/-! ## What is made -/

/-- The type made for a request, if there is one. -/
def madeIf (isMade : Bool) (r : Request) : Option Handle := if isMade then some (.made r) else none

@[simp] theorem isNone_madeIf (b : Bool) (r : Request) : (madeIf b r).isNone = !b := by
  cases b <;> rfl

theorem isEmpty_offered (candidates : List (String × Option Handle)) :
    (offered candidates).isEmpty = candidates.all (·.2.isNone) := by
  induction candidates with
  | nil => rfl
  | cons candidate candidates ih =>
    obtain ⟨name, made⟩ := candidate
    cases made with
    | none => exact ih
    | some h => rfl

theorem isEmpty_filter {α : Type} (p : α → Bool) (l : List α) : (l.filter p).isEmpty = !l.any p := by
  rw [Bool.eq_iff_iff]
  simp

/-! ## Types that answer -/

section Gives

variable {g : TypeGraph}

theorem gives_make (r : Request) : Gives (· = .made r) (make r) := by
  unfold make
  split
  · exact nofun
  · exact gives_ok rfl

/-- A type that answers a request is the type made for it. Only a request for a scalar can have another answer: the
type of a scalar, or the enum made for a request of its own. -/
theorem gives_build (ask : Ask (Except Error)) {r : Request} (hk : r.kind ≠ .scalar) :
    Gives (fun made => ∀ x ∈ made, x = .made r) (build g ask r) := by
  have hsome : Gives (fun made => ∀ x ∈ made, x = .made r) (do return some (← make r)) := by
    refine (gives_make r).bind fun x hx => gives_ok ?_
    rintro _ ⟨⟩
    exact hx
  have hunless : ∀ b : Bool, Gives (fun made => ∀ x ∈ made, x = .made r)
      (if b then pure none else do return some (← make r)) := by
    intro b
    cases b with
    | true => exact gives_ok nofun
    | false => exact hsome
  obtain ⟨kind, subject, args⟩ := r
  cases kind
  case scalar => exact absurd rfl hk
  all_goals simp only [build, makeEnum, ofExcept_eq]
  case enum | orderBy => exact gives_bind fun values => hunless values.isEmpty
  case node | pageInfo | query | mutation => exact hsome
  case batchPayload | object | edge | aggregate | connection => exact gives_bind fun _ => hsome
  all_goals exact gives_bind fun t => gives_bind fun b => hunless b

theorem gives_fresh {r : Request} (hk : r.kind ≠ .scalar) :
    Gives (fun made => ∀ x ∈ made, x = .made r) (fresh g r) := by
  rw [fresh_eq_build]
  exact gives_build (fresh g) hk

end Gives

/-! ## Fields as they are -/

theorem resolving_eq_ok_iff {α : Type} {r : Request} {x : Except Error α} {a : α} :
    resolving r x = .ok a ↔ x = .ok a := by
  cases x with
  | ok a => exact Iff.rfl
  | error e => exact ⟨nofun, nofun⟩

theorem eq_of_checkFieldNames {α : Type} {fields checked : FieldMap α}
    (h : (ofExcept (checkFieldNames fields) : Except Error (FieldMap α)) = .ok checked) : checked = fields := by
  rw [ofExcept_eq, checkFieldNames] at h
  split at h
  · cases h
  · cases h
    rfl

/-! ## Fields of a type -/

section Answers

variable {g : TypeGraph} (h : WellFormed g.types) {t : ModelType} (ht : t ∈ g.types)

include h ht

/-- A request about a type of the datamodel finds the type. -/
theorem subject_eq {r : Request} (hr : r.subject = t.name) : subject g r = .ok t := by
  rw [subject, hr, find?_of_mem h ht]

/-- The check that a unique field points at a scalar or an enum passes, so the unique fields are all found. -/
theorem uniqueFields_eq : uniqueFields g t = .ok (t.fields.filter (·.isUnique)) := by
  rw [uniqueFields, leafFields_of_subset h ht (List.filter_subset_self _), List.filter_filter]
  congr 1
  refine List.filter_congr fun f hf => ?_
  cases hu : f.isUnique with
  | false => rw [Bool.and_false]
  | true => rw [isLeafOf_of_isUnique h ht hf hu, Bool.and_true]

/-- Among the writable fields, those that the generators keep are the ones that point at scalars and enums. -/
theorem writableLeafFields_eq :
    writableLeafFields g t = .ok ((writableFields t).filter (isLeafOf g)) :=
  leafFields_of_subset h ht (List.filter_subset_self _)

/-- There is something to order by exactly in types with a field that has one value. -/
theorem orderValues_eq : ∃ values, orderValues g t = .ok values ∧ values.isEmpty = !isOrderable g t := by
  have hflat : ∀ fs : List ModelField,
      (fs.flatMap fun f => [f.name ++ "_ASC", f.name ++ "_DESC"]).isEmpty = fs.isEmpty := by
    intro fs
    cases fs <;> rfl
  refine ⟨_, ?_, (hflat ((t.fields.filter (!·.isList)).filter (isLeafOf g))).trans ?_⟩
  · rw [orderValues, leafFields_of_subset h ht (List.filter_subset_self _)]
    rfl
  · rw [isOrderable, List.filter_filter, isEmpty_filter]
    simp only [Bool.and_comm]

/-! ## Inputs -/

omit h ht in
/-- Inputs are called after their types, with an ending that tells the kind. -/
theorem exists_ending {r : Request} (hk : r.kind.isInput = true) :
    ∃ s ∈ generatedSuffixes, r.typeName = r.subject ++ s := by
  obtain ⟨kind, subject, args⟩ := r
  cases kind
  case update =>
    refine ⟨if args.nested then "UpdateDataInput" else "UpdateInput", ?_, rfl⟩
    split <;> decide
  case updateOne =>
    refine ⟨if args.required then "UpdateOneRequiredInput" else "UpdateOneInput", ?_, rfl⟩
    split <;> decide
  all_goals first
    | refine ⟨_, ?_, rfl⟩
      decide
    | cases hk

/-- The name of an input is a GraphQL name that nothing else has, so nothing keeps the input from being made. -/
theorem make_input {r : Request} (hk : r.kind.isInput = true) (hr : r.subject = t.name) :
    make r = .ok (.made r) := by
  obtain ⟨s, hs, hname⟩ := exists_ending hk
  rw [hr] at hname
  exact make_of_typeName_append (h.type t ht).isName_name hs hname

/-- An input is made where it would have a field. -/
theorem fresh_of_wouldBeEmpty {r : Request} (hk : r.kind.isInput = true) (hr : r.subject = t.name)
    {b : Bool} (hempty : wouldBeEmpty g (fresh g) r t = .ok (!b)) : fresh g r = .ok (madeIf b r) := by
  have hbuild : build g (fresh g) r = (do
      let t ← ofExcept (subject g r)
      if ← wouldBeEmpty g (fresh g) r t then return none
      else return some (← ofExcept (make r))) := by
    obtain ⟨kind, subject, args⟩ := r
    cases kind <;> first | rfl | cases hk
  rw [fresh_eq_build, hbuild, subject_eq h ht hr, make_input h ht hk hr, ofExcept_eq, ofExcept_eq,
    ok_bind, hempty]
  cases b <;> rfl

theorem fresh_whereInput : fresh g (.of .whereInput t.name) = .ok (some (.made (.of .whereInput t.name))) :=
  fresh_of_wouldBeEmpty h ht rfl rfl (b := true) rfl

theorem wouldBeEmpty_whereUnique {r : Request} (hk : r.kind = .whereUnique) :
    wouldBeEmpty g (fresh g) r t = .ok (!isSelectable t) := by
  rw [wouldBeEmpty, hk]
  simp only [uniqueFields_eq h ht, ofExcept_eq, ok_bind, isEmpty_filter]
  rfl

theorem fresh_whereUnique (a : Args) :
    fresh g ⟨.whereUnique, t.name, a⟩ = .ok (madeIf (isSelectable t) ⟨.whereUnique, t.name, a⟩) :=
  fresh_of_wouldBeEmpty h ht rfl rfl (wouldBeEmpty_whereUnique h ht rfl)

omit h ht in
theorem wouldBeEmpty_create {r : Request} (hk : r.kind = .create ∨ r.kind = .update) :
    wouldBeEmpty g (fresh g) r t = .ok (!isWritable t) := by
  rcases hk with hk | hk
  · rw [wouldBeEmpty, hk, isWritable, ← isEmpty_filter]
    rfl
  · rw [wouldBeEmpty, hk, isWritable, ← isEmpty_filter]
    rfl

theorem fresh_create (a : Args) :
    fresh g ⟨.create, t.name, a⟩ = .ok (madeIf (isWritable t) ⟨.create, t.name, a⟩) :=
  fresh_of_wouldBeEmpty h ht rfl rfl (wouldBeEmpty_create (Or.inl rfl))

theorem fresh_update (a : Args) :
    fresh g ⟨.update, t.name, a⟩ = .ok (madeIf (isWritable t) ⟨.update, t.name, a⟩) :=
  fresh_of_wouldBeEmpty h ht rfl rfl (wouldBeEmpty_create (Or.inr rfl))

theorem wouldBeEmpty_updateManyMutation {r : Request} (hk : r.kind = .updateManyMutation) :
    wouldBeEmpty g (fresh g) r t =
      .ok (!t.fields.any fun f => !f.isReadOnly && isLeafOf g f) := by
  rw [wouldBeEmpty, hk, ← isEmpty_filter]
  simp only [writableLeafFields_eq h ht, ofExcept_eq, ok_bind, writableFields, List.filter_filter,
    Bool.and_comm]
  rfl

/-! ## Operations of nested inputs -/

/-- An item can be connected where it can be selected, and an embedded one never. -/
theorem askConnect_fresh :
    askConnect (fresh g) t = .ok (madeIf (isConnectable t) (.of .whereUnique t.name)) := by
  unfold askConnect isConnectable
  cases t.isEmbedded with
  | true => rfl
  | false => exact fresh_whereUnique h ht .none

theorem createOperations_fresh : createOperations (fresh g) t = .ok (offered
    [("create", madeIf (isWritable t) (.of .create t.name)),
     ("connect", madeIf (isConnectable t) (.of .whereUnique t.name))]) := by
  rw [createOperations, askConnect_fresh h ht, askCreate, Request.of, fresh_create h ht]
  rfl

/-- Both parts are asked for, and each is there or missing for itself. -/
theorem updateSelectedParts_fresh : updateSelectedParts (fresh g) t = .ok
    [("where", madeIf (isSelectable t) (.of .whereUnique t.name)),
     ("data", madeIf (isWritable t) ⟨.update, t.name, .isNested⟩)] := by
  rw [updateSelectedParts, askWhereUnique, Request.of, fresh_whereUnique h ht, askNestedUpdate,
    fresh_update h ht]
  rfl

theorem upsertParts_fresh : upsertParts (fresh g) t = .ok
    [("update", madeIf (isWritable t) ⟨.update, t.name, .isNested⟩),
     ("create", madeIf (isWritable t) (.of .create t.name))] := by
  rw [upsertParts, askNestedUpdate, fresh_update h ht, askCreate, Request.of, fresh_create h ht]
  rfl

theorem wouldBeEmpty_createOne {r : Request} (hk : r.kind = .createOne ∨ r.kind = .createMany) :
    wouldBeEmpty g (fresh g) r t = .ok (!(isWritable t || isConnectable t)) := by
  have hempty : (do return (← createOperations (fresh g) t).isEmpty : Except Error Bool) =
      .ok (!(isWritable t || isConnectable t)) := by
    rw [createOperations_fresh h ht, ok_bind, isEmpty_offered]
    simp only [List.all_cons, List.all_nil, isNone_madeIf, Bool.and_true, Bool.not_or]
    rfl
  rcases hk with hk | hk
  · rw [wouldBeEmpty, hk, ← hempty]
  · rw [wouldBeEmpty, hk, ← hempty]

/-- One missing part is enough to leave the input out. -/
theorem wouldBeEmpty_updateWithWhereUnique {r : Request} (hk : r.kind = .updateWithWhereUnique) :
    wouldBeEmpty g (fresh g) r t = .ok (!(isSelectable t && isWritable t)) := by
  rw [wouldBeEmpty, hk, updateSelectedParts_fresh h ht]
  simp only [ok_bind, List.any_cons, List.any_nil, isNone_madeIf, Bool.or_false, Bool.not_and]
  rfl

theorem wouldBeEmpty_upsertNested {r : Request} (hk : r.kind = .upsertNested) :
    wouldBeEmpty g (fresh g) r t = .ok (!isWritable t) := by
  rw [wouldBeEmpty, hk, upsertParts_fresh h ht]
  simp only [ok_bind, List.any_cons, List.any_nil, isNone_madeIf, Bool.or_false, Bool.or_self]
  rfl

theorem fresh_upsertNested (a : Args) :
    fresh g ⟨.upsertNested, t.name, a⟩ = .ok (madeIf (isWritable t) ⟨.upsertNested, t.name, a⟩) :=
  fresh_of_wouldBeEmpty h ht rfl rfl (wouldBeEmpty_upsertNested h ht rfl)

theorem fresh_updateWithWhereUnique (a : Args) :
    fresh g ⟨.updateWithWhereUnique, t.name, a⟩ =
      .ok (madeIf (isSelectable t && isWritable t) ⟨.updateWithWhereUnique, t.name, a⟩) :=
  fresh_of_wouldBeEmpty h ht rfl rfl (wouldBeEmpty_updateWithWhereUnique h ht rfl)

/-- The input that tells whether something is to be done. -/
def flagIf (possible : Bool) : Option Handle := if possible then some (.scalar .boolean) else none

/-- A required item can neither be deleted nor disconnected. -/
theorem updateOneOperations_fresh (required : Bool) :
    updateOneOperations (fresh g) t required = .ok (offered
      [("create", madeIf (isWritable t) (.of .create t.name)),
       ("update", madeIf (isWritable t) ⟨.update, t.name, .isNested⟩),
       ("upsert", madeIf (isWritable t) (.of .upsertNested t.name)),
       ("delete", flagIf !required), ("disconnect", flagIf (!required && !t.isEmbedded)),
       ("connect", madeIf (isConnectable t) (.of .whereUnique t.name))]) := by
  rw [updateOneOperations, askCreate, Request.of, fresh_create h ht, askNestedUpdate,
    fresh_update h ht, Request.of, fresh_upsertNested h ht, askConnect_fresh h ht]
  rfl

theorem updateManyOperations_fresh : updateManyOperations (fresh g) t = .ok (offered
    [("create", madeIf (isWritable t) (.of .create t.name)),
     ("update", madeIf (isSelectable t && isWritable t) (.of .updateWithWhereUnique t.name)),
     ("delete", madeIf (isSelectable t) (.of .whereUnique t.name)),
     ("connect", madeIf (isConnectable t) (.of .whereUnique t.name)),
     ("disconnect", madeIf (isConnectable t) (.of .whereUnique t.name))]) := by
  rw [updateManyOperations, askCreate, Request.of, fresh_create h ht, askWhereUnique, Request.of,
    fresh_whereUnique h ht, Request.of, fresh_updateWithWhereUnique h ht]
  unfold isConnectable
  cases t.isEmbedded <;> rfl

theorem wouldBeEmpty_updateOne {r : Request} (hk : r.kind = .updateOne) :
    wouldBeEmpty g (fresh g) r t =
      .ok (!(isWritable t || !r.args.required || isConnectable t)) := by
  rw [wouldBeEmpty, hk, updateOneOperations_fresh h ht]
  simp only [ok_bind, isEmpty_offered, List.all_cons, List.all_nil, isNone_madeIf]
  congr 1
  cases r.args.required <;> cases isWritable t <;> cases isConnectable t <;> rfl

theorem wouldBeEmpty_updateMany {r : Request} (hk : r.kind = .updateMany) :
    wouldBeEmpty g (fresh g) r t = .ok (!(isSelectable t || isWritable t)) := by
  rw [wouldBeEmpty, hk, updateManyOperations_fresh h ht]
  simp only [ok_bind, isEmpty_offered, List.all_cons, List.all_nil, isNone_madeIf, isConnectable]
  congr 1
  cases isSelectable t <;> cases isWritable t <;> cases t.isEmbedded <;> rfl

/-! ## All inputs -/

/-- The tests of all kinds of inputs in one: an input would be empty where its type offers nothing to it. -/
theorem wouldBeEmpty_fresh {r : Request} (hk : r.kind.isInput = true) :
    wouldBeEmpty g (fresh g) r t = .ok (!offersInput g t r.args.required r.kind) := by
  cases hkind : r.kind with
  | whereInput =>
    rw [wouldBeEmpty, hkind]
    rfl
  | whereUnique => exact wouldBeEmpty_whereUnique h ht hkind
  | create => exact wouldBeEmpty_create (Or.inl hkind)
  | update => exact wouldBeEmpty_create (Or.inr hkind)
  | updateManyMutation => exact wouldBeEmpty_updateManyMutation h ht hkind
  | createOne => exact wouldBeEmpty_createOne h ht (Or.inl hkind)
  | createMany => exact wouldBeEmpty_createOne h ht (Or.inr hkind)
  | updateOne => exact wouldBeEmpty_updateOne h ht hkind
  | updateMany => exact wouldBeEmpty_updateMany h ht hkind
  | updateWithWhereUnique => exact wouldBeEmpty_updateWithWhereUnique h ht hkind
  | upsertNested => exact wouldBeEmpty_upsertNested h ht hkind
  | _ =>
    rw [hkind] at hk
    cases hk

/-- The answer to a request for an input. -/
theorem fresh_input {r : Request} (hk : r.kind.isInput = true) (hr : r.subject = t.name) :
    fresh g r = .ok (madeIf (offersInput g t r.args.required r.kind) r) :=
  fresh_of_wouldBeEmpty h ht hk hr (wouldBeEmpty_fresh h ht hk)

/-! ## Objects, enums and scalars -/

/-- An object of the datamodel exists unless its name is taken. -/
theorem fresh_object : fresh g (.of .object t.name) = (make (.of .object t.name)).map some := by
  rw [fresh_eq_build, build, Request.of]
  simp only [subject_eq h ht (r := ⟨.object, t.name, .none⟩) rfl, ofExcept_eq, ok_bind]
  cases make ⟨.object, t.name, .none⟩ <;> rfl

/-- Whoever uses an object of the datamodel fails where its name is taken. -/
theorem type_object_fresh : Ask.type (fresh g) (.of .object t.name) =
    if t.name ∈ introspectionNames then .error (.badTypeName (.reserved t.name))
    else .ok (.made (.of .object t.name)) := by
  rw [Ask.type, fresh_object h ht, make_of_typeName_eq (h.type t ht) rfl]
  split <;> rfl

omit h ht in
/-- The field of an object, whatever it points at: it has the name and the description of the field that it is
made from, and arguments only where it is a list of items. -/
theorem exists_of_objectField {ask : Ask (Except Error)} {f : ModelField} {entry : String × OutputField Handle}
    (hentry : objectField g ask f = .ok entry) :
    ∃ type args, entry = (f.name, { type, args, description := f.description }) ∧
      (args = [] ∨ ∃ u : ModelType, manyArgs ask u.name = .ok args) := by
  obtain ⟨pointed, _, hentry⟩ := bind_eq_ok_iff.mp hentry
  cases pointed with
  | scalar | enum =>
    obtain ⟨_, _, hentry⟩ := bind_eq_ok_iff.mp hentry
    cases hentry
    exact ⟨_, _, rfl, .inl rfl⟩
  | relation u =>
    obtain ⟨_, _, hentry⟩ := bind_eq_ok_iff.mp hentry
    dsimp only at hentry
    split at hentry
    · obtain ⟨args, hargs, hentry⟩ := bind_eq_ok_iff.mp hentry
      cases hentry
      exact ⟨_, _, rfl, .inr ⟨u, hargs⟩⟩
    · cases hentry
      exact ⟨_, _, rfl, .inl rfl⟩

omit h ht in
theorem name_of_objectField {ask : Ask (Except Error)} {f : ModelField} {entry : String × OutputField Handle}
    (hentry : objectField g ask f = .ok entry) : entry.1 = f.name := by
  obtain ⟨_, _, rfl, _⟩ := exists_of_objectField hentry
  rfl

/-- The fields of an object are those for the fields of its type, each in its place. -/
theorem objectFields_eq_ok_iff {ask : Ask (Except Error)} {fields : FieldMap (OutputField Handle)} :
    objectFields g ask t = .ok fields ↔ t.fields.mapM (objectField g ask) = .ok fields := by
  have hkept : ∀ {entries}, t.fields.mapM (objectField g ask) = .ok entries →
      FieldMap.ofEntries entries = entries := by
    intro entries hentries
    have hnames : entries.map Prod.fst = t.fields.map (·.name) :=
      map_of_mapM_eq_ok hentries fun _ _ _ hentry => name_of_objectField hentry
    exact FieldMap.ofEntries_of_nodup (hnames ▸ (h.type t ht).nodup_fields)
  rw [objectFields, bind_eq_ok_iff]
  constructor
  · rintro ⟨entries, hentries, hfields⟩
    cases hfields
    rw [hkept hentries]
    exact hentries
  · intro hentries
    exact ⟨fields, hentries, congrArg Except.ok (hkept hentries)⟩

/-- An object of the datamodel is made of the fields of its type and described as the type is, however its parts
are asked for. -/
theorem exists_of_define_object {ask : Ask (Except Error)} {d : NamedType Handle}
    (hd : define g ask (.made (.of .object t.name)) = .ok d) :
    ∃ interfaces fields, objectFields g ask t = .ok fields ∧
      d = { name := t.name, description := t.description, body := .object interfaces fields } := by
  obtain ⟨body, hbody, hd⟩ := bind_eq_ok_iff.mp hd
  cases hd
  obtain ⟨interfaces, _, hbody⟩ := bind_eq_ok_iff.mp hbody
  obtain ⟨made, hmade, hbody⟩ := bind_eq_ok_iff.mp hbody
  obtain ⟨checked, hchecked, hbody⟩ := bind_eq_ok_iff.mp hbody
  cases hbody
  have hfields : objectFields g ask t = .ok made := by
    have hsubject : subject g (.of .object t.name) = .ok t := subject_eq h ht rfl
    have hmade : ofExcept (subject g (.of .object t.name)) >>= objectFields g ask = .ok made :=
      resolving_eq_ok_iff.mp hmade
    rwa [hsubject, ofExcept_eq, ok_bind] at hmade
  have hdescription : description g (.of .object t.name) = t.description := by
    show (g.find? t.name).bind (·.description) = t.description
    rw [find?_of_mem h ht]
    rfl
  rw [hdescription, eq_of_checkFieldNames hchecked]
  exact ⟨interfaces, made, hfields, rfl⟩

/-- An enum of the datamodel exists unless its name is taken. -/
theorem fresh_enum (henum : t.isEnum = true) :
    fresh g (.of .enum t.name) = (make (.of .enum t.name)).map some := by
  have hvalues : t.values.isEmpty = false := by
    simpa using (h.type t ht).values_ne_nil henum
  rw [fresh_eq_build, build, Request.of]
  simp only [makeEnum, enumValues, subject_eq h ht (r := ⟨.enum, t.name, .none⟩) rfl, ofExcept_eq,
    ok_bind, pure, Except.pure, hvalues]
  cases make ⟨.enum, t.name, .none⟩ <;> rfl

/-- An enum that is asked for as a scalar is answered with the enum itself. -/
theorem fresh_scalar_enum (henum : t.isEnum = true) :
    fresh g (.of .scalar t.name) = fresh g (.of .enum t.name) := by
  rw [fresh_eq_build, build, Request.of]
  simp only [find?_of_mem h ht, henum, if_true]

theorem fresh_orderBy :
    fresh g (.of .orderBy t.name) = .ok (madeIf (isOrderable g t) (.of .orderBy t.name)) := by
  obtain ⟨values, hvalues, hempty⟩ := orderValues_eq h ht
  have hmake : make ⟨.orderBy, t.name, .none⟩ = .ok (.made ⟨.orderBy, t.name, .none⟩) :=
    make_of_typeName_append (h.type t ht).isName_name (s := "OrderByInput") (by decide) rfl
  rw [fresh_eq_build, build, Request.of]
  simp only [makeEnum, enumValues, subject_eq h ht (r := ⟨.orderBy, t.name, .none⟩) rfl, ofExcept_eq,
    ok_bind, hvalues, hempty, hmake]
  cases isOrderable g t <;> rfl

/-- The objects of a page exist where their names are free. -/
theorem fresh_of_make {k : Kind} (hk : k = .edge ∨ k = .connection ∨ k = .aggregate)
    (hmake : make (.of k t.name) = .ok (.made (.of k t.name))) :
    fresh g (.of k t.name) = .ok (some (.made (.of k t.name))) := by
  have hbuild : build g (fresh g) (.of k t.name) = (do
      let _ ← ofExcept (subject g (.of k t.name))
      return some (← ofExcept (make (.of k t.name)))) := by
    rcases hk with rfl | rfl | rfl <;> rfl
  rw [fresh_eq_build, hbuild, subject_eq h ht rfl, hmake]
  rfl

theorem fresh_edge : fresh g (.of .edge t.name) = .ok (some (.made (.of .edge t.name))) :=
  fresh_of_make h ht (Or.inl rfl)
    (make_of_typeName_append (h.type t ht).isName_name (s := "Edge") (by decide) rfl)

theorem fresh_connection :
    fresh g (.of .connection t.name) = .ok (some (.made (.of .connection t.name))) :=
  fresh_of_make h ht (Or.inr (Or.inl rfl))
    (make_of_typeName_append (h.type t ht).isName_name (s := "Connection") (by decide) rfl)

theorem fresh_aggregate :
    fresh g (.of .aggregate t.name) = .ok (some (.made (.of .aggregate t.name))) :=
  fresh_of_make h ht (Or.inr (Or.inr rfl)) (make_aggregate (h.type t ht).isName_name)

end Answers

section Shared

variable {g : TypeGraph} (h : WellFormed g.types)

include h

theorem fresh_scalar (s : Scalar) : fresh g (.of .scalar s.name) = .ok (some (.scalar s)) := by
  have hfind : g.find? s.name = none := find?_of_isScalar h (by simp [Scalar.isScalar])
  rw [fresh_eq_build, build, Request.of]
  simp only [hfind, Scalar.ofName?_name]
  rfl

/-- What exists once per schema is there whatever the datamodel is. -/
theorem fresh_shared {k : Kind} (hk : k.isShared = true) :
    fresh g (.shared k) = .ok (some (.made (.shared k))) := by
  have hlong : fresh g (.of .scalar Scalar.long.name) = .ok (some (.scalar .long)) :=
    fresh_scalar h .long
  rw [fresh_eq_build, build, Request.shared, Request.of]
  cases k with
  | batchPayload =>
    simp only [hlong, ok_bind]
    rfl
  | node => rfl
  | pageInfo => rfl
  | query => rfl
  | mutation => rfl
  | _ => cases hk

end Shared

end OpenCrud.Generate
