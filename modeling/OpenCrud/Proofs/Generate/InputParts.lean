import OpenCrud.Proofs.Generate.FilterFields

/-!
# What the fields of inputs refer to

A field of an input refers to a scalar or an enum that its type of the datamodel points at, to another input of
the same type, to an input of a type that it points at, or to nothing that exists (`Mentions`). Most fields may be left out. Those that may
not be are few, and what they take is of a smaller height (`Kind.height`): what creates an item comes before what
changes one that may have to be created, and all other inputs can be empty. Main result: `gives_inputParts`.
-/

namespace OpenCrud.Generate

open Datamodel
open MonadExcept (ofExcept)

/-! ## References of inputs -/

/-- The scalar or the enum that a field points at. -/
def IsLeafTarget (g : TypeGraph) (f : ModelField) (x : Handle) : Prop :=
  (∃ s : Scalar, f.typeName = s.name ∧ x = .scalar s) ∨
    ∃ u ∈ g.types, u.isEnum = true ∧ f.typeName = u.name ∧ x = .made (.of .enum u.name)

/-- What the inputs of a type refer to, those among them that are not made. -/
inductive Mentions (g : TypeGraph) (t : ModelType) : Handle → Prop
  | absent : Mentions g t .absent
  | flag : Mentions g t (.scalar .boolean)
  | leaf {f : ModelField} {x : Handle} (hf : f ∈ t.fields) (hx : IsLeafTarget g f x) : Mentions g t x
  | own {r : Request} (hk : r.kind.isInput = true) (hr : r.subject = t.name) : Mentions g t (.made r)
  | related {f : ModelField} {r : Request} (hf : f ∈ t.fields) (hk : r.kind.isInput = true)
    (hr : r.subject = f.typeName) : Mentions g t (.made r)

/-! ## Heights -/

/-- How many inputs, one in the other, an input of a kind cannot do without. -/
def Kind.height : Kind → Nat
  | .updateWithWhereUnique | .upsertNested => 2
  | .create => 1
  | _ => 0

/-- The height of the type behind a handle. -/
def Handle.height : Handle → Nat
  | .made r => r.kind.height
  | _ => 0

/-- A scalar or an enum is no input, so it needs none. -/
theorem IsLeafTarget.height_eq {g : TypeGraph} {f : ModelField} {x : Handle} (hx : IsLeafTarget g f x) :
    x.height = 0 := by
  obtain ⟨s, _, rfl⟩ | ⟨u, _, _, _, rfl⟩ := hx
  · rfl
  · rfl

/-- The type of a field in the inputs of a type: what it refers to, and that a type that is not null is a list or
lower than a height. -/
structure InputPart (g : TypeGraph) (t : ModelType) (height : Nat) (e : TypeExpr Handle) : Prop where
  mentions : Mentions g t e.base
  low : e.isNonNull = true →
    (∃ item, e = .nonNull (.list item)) ∨ ∃ x : Handle, e = .nonNull (.named x) ∧ x.height < height

namespace InputPart

variable {g : TypeGraph} {t : ModelType} {n : Nat} {x : Handle}

theorem named (hx : Mentions g t x) : InputPart g t n (.named x) := ⟨hx, nofun⟩

theorem listOf (hx : Mentions g t x) : InputPart g t n (listOf (.named x)) := ⟨hx, nofun⟩

theorem nonNull (hx : Mentions g t x) (hlow : x.height < n) : InputPart g t n (.nonNull (.named x)) :=
  ⟨hx, fun _ => .inr ⟨x, rfl, hlow⟩⟩

theorem nonNull_listOf (hx : Mentions g t x) : InputPart g t n (.nonNull (Generate.listOf (.named x))) :=
  ⟨hx, fun _ => .inl ⟨_, rfl⟩⟩

theorem requiredIf {required : Bool} (hx : Mentions g t x) (hlow : x.height < n) :
    InputPart g t n (requiredIf required (.named x)) := by
  cases required with
  | true => exact nonNull hx hlow
  | false => exact named hx

end InputPart

/-- The fields of an input: each name once, and types that are parts of it. -/
structure InputParts (g : TypeGraph) (t : ModelType) (height : Nat) (fields : FieldMap (InputField Handle)) :
    Prop where
  nodup : (fields.map Prod.fst).Nodup
  part : ∀ entry ∈ fields, InputPart g t height entry.2.type

namespace InputParts

variable {g : TypeGraph} {t : ModelType} {n : Nat}

theorem ofEntries {entries : FieldMap (InputField Handle)}
    (h : ∀ entry ∈ entries, InputPart g t n entry.2.type) : InputParts g t n (.ofEntries entries) where
  nodup := FieldMap.nodup_keys_ofEntries
  part entry hentry := h entry (FieldMap.mem_of_mem_ofEntries hentry)

end InputParts

/-! ## Fields of inputs -/

section Fields

variable {g : TypeGraph} (h : WellFormed g.types) {t : ModelType} (ht : t ∈ g.types)

include h ht

theorem gives_leafType {f : ModelField} (hf : f ∈ t.fields) (hleaf : isLeafOf g f = true) :
    Gives (fun e => ∃ x, e = .named x ∧ IsLeafTarget g f x) (leafType (fresh g) f) := by
  rcases target_of_mem h ht hf with ⟨s, hname, _⟩ | ⟨u, hu, hname, henum, _⟩ | ⟨u, _, _, _, _, htarget⟩
  · rw [leafType_scalar_fresh h hname]
    exact gives_ok ⟨_, rfl, .inl ⟨s, hname, rfl⟩⟩
  · rw [leafType_enum_fresh h hu henum hname]
    split
    · exact nofun
    · exact gives_ok ⟨_, rfl, .inr ⟨u, hu, henum, hname, rfl⟩⟩
  · rw [isLeafOf, htarget] at hleaf
    cases hleaf

/-- Without the mark of a required field, the type is what the field points at, or a list of it. -/
theorem gives_optionalType {f : ModelField} (hf : f ∈ t.fields) (hleaf : isLeafOf g f = true) :
    Gives (fun e => ∃ x, IsLeafTarget g f x ∧ (e = .named x ∨ e = listOf (.named x)))
      (optionalType (fresh g) f) := by
  refine (gives_leafType h ht hf hleaf).bind ?_
  rintro _ ⟨x, rfl, hx⟩
  cases f.isList with
  | true => exact gives_ok ⟨x, hx, .inr rfl⟩
  | false => exact gives_ok ⟨x, hx, .inl rfl⟩

/-- A field that may be left out is a part of every height. -/
theorem gives_optionalPart {f : ModelField} (hf : f ∈ t.fields) (hleaf : isLeafOf g f = true) (n : Nat) :
    Gives (InputPart g t n) (optionalType (fresh g) f) := by
  intro e he
  obtain ⟨x, hx, rfl | rfl⟩ := gives_optionalType h ht hf hleaf e he
  · exact .named (.leaf hf hx)
  · exact .listOf (.leaf hf hx)

/-- A required field is marked, unless it has a value by default; what it takes has no height. -/
theorem gives_inputType {f : ModelField} (hf : f ∈ t.fields) (hleaf : isLeafOf g f = true) :
    Gives (InputPart g t 1) (inputType (fresh g) f) := by
  refine (gives_optionalType h ht hf hleaf).bind ?_
  rintro e ⟨x, hx, he⟩
  have hmentions : Mentions g t x := .leaf hf hx
  have hlow : x.height < 1 := hx.height_eq ▸ Nat.one_pos
  refine gives_ok ?_
  rcases he with rfl | rfl
  · exact .requiredIf hmentions hlow
  · cases f.isRequired && f.defaultValue.isNone with
    | true => exact .nonNull_listOf hmentions
    | false => exact .listOf hmentions

omit h ht in
theorem part_valueOrList {x : Handle} (hx : Mentions g t x) (suffix : String) (n : Nat) :
    InputPart g t n (valueOrList suffix x) := by
  unfold valueOrList
  split
  · exact .listOf hx
  · exact .named hx

/-- No filter is needed. -/
theorem inputParts_promisedWhere (n : Nat) : InputParts g t n (.ofEntries (promisedWhere g t)) := by
  refine .ofEntries fun entry hentry => ?_
  rcases List.mem_append.mp hentry with hentry | hentry
  · obtain ⟨f, hf, hentry⟩ := List.mem_flatMap.mp hentry
    obtain ⟨suffix, _, rfl⟩ := List.mem_map.mp hentry
    dsimp only
    unfold promisedType
    rcases target_of_mem h ht hf with ⟨s, hname, htarget⟩ | ⟨u, hu, hname, henum, htarget⟩ |
      ⟨u, _, hname, _, _, htarget⟩
    · rw [htarget]
      exact part_valueOrList (.leaf hf (.inl ⟨s, hname, rfl⟩)) suffix n
    · rw [htarget]
      exact part_valueOrList (.leaf hf (.inr ⟨u, hu, henum, hname, rfl⟩)) suffix n
    · rw [htarget]
      exact .named (.related hf rfl hname.symm)
  · obtain ⟨operator, _, rfl⟩ := List.mem_map.mp hentry
    exact .listOf (.own rfl rfl)

/-! ## Chosen fields -/

omit h ht in
/-- A map of chosen fields has each name once, whichever fields were dropped. -/
theorem gives_chosenParts {n : Nat} {fields : List ModelField}
    {field : ModelField → Except Error (Option (String × InputField Handle))}
    (hfield : ∀ f ∈ fields, Gives (fun made => ∀ entry ∈ made, InputPart g t n entry.2.type) (field f)) :
    Gives (InputParts g t n) (fields.mapM field >>= fun made => pure (.ofEntries (made.filterMap id))) := by
  refine (Gives.mapM hfield).bind fun made hmade => gives_ok (.ofEntries fun entry hentry => ?_)
  obtain ⟨choice, hchoice, heq⟩ := List.mem_filterMap.mp hentry
  exact hmade choice hchoice entry heq

omit h ht in
theorem gives_somePart {n : Nat} {name : String} {type : Except Error (TypeExpr Handle)}
    (htype : Gives (InputPart g t n) type) :
    Gives (fun made => ∀ entry ∈ made, InputPart g t n entry.2.type)
      (type >>= fun e => pure (some (name, ({ type := e } : InputField Handle)))) := by
  refine htype.bind fun e he => gives_ok ?_
  rintro _ ⟨⟩
  exact he

omit h ht in
/-- A field that takes an input refers to the one made for the request, if there is one. -/
theorem gives_madePart {n : Nat} {name subject : String} {k : Kind} {args : Args}
    (modify : TypeExpr Handle → TypeExpr Handle) (hk : k ≠ .scalar)
    (hpart : InputPart g t n (modify (.named (.made ⟨k, subject, args⟩)))) :
    Gives (fun made => ∀ entry ∈ made, InputPart g t n entry.2.type) (fresh g ⟨k, subject, args⟩ >>= fun made =>
      pure (made.map fun x => (name, ({ type := modify (.named x) } : InputField Handle)))) := by
  refine (gives_fresh (r := ⟨k, subject, args⟩) hk).bind fun made hmade => gives_ok fun entry hentry => ?_
  obtain ⟨x, hx, rfl⟩ := Option.map_eq_some_iff.mp hentry
  rw [hmade x hx]
  exact hpart

/-- A required relation is the only way in which an input that creates an item needs another input. -/
theorem gives_createPart {f : ModelField} (hf : f ∈ t.fields) :
    Gives (fun made => ∀ entry ∈ made, InputPart g t 1 entry.2.type) (createField g (fresh g) f) := by
  have hmade : ∀ {k : Kind} {u : ModelType}, k.isInput = true → f.typeName = u.name →
      Mentions g t (.made (.of k u.name)) := fun hk hname => .related hf hk hname.symm
  unfold createField
  rw [ofExcept_eq]
  rcases target_of_mem h ht hf with ⟨s, _, htarget⟩ | ⟨u, _, _, _, htarget⟩ | ⟨u, _, hname, _, _, htarget⟩
  · rw [htarget]
    exact gives_somePart (gives_inputType h ht hf (by rw [isLeafOf, htarget]; rfl))
  · rw [htarget]
    exact gives_somePart (gives_inputType h ht hf (by rw [isLeafOf, htarget]; rfl))
  · rw [htarget, ok_bind]
    dsimp only
    split
    · exact gives_madePart id (by decide) (.named (hmade rfl hname))
    · exact gives_madePart (requiredIf f.isRequired) (by decide) (.requiredIf (hmade rfl hname) Nat.one_pos)

/-- No field of an update is needed, so updates end every chain of needed inputs. -/
theorem gives_updatePart {f : ModelField} (hf : f ∈ t.fields) (n : Nat) :
    Gives (fun made => ∀ entry ∈ made, InputPart g t n entry.2.type) (updateField g (fresh g) f) := by
  unfold updateField
  rw [ofExcept_eq]
  rcases target_of_mem h ht hf with ⟨s, _, htarget⟩ | ⟨u, _, _, _, htarget⟩ | ⟨u, _, hname, _, _, htarget⟩
  · rw [htarget]
    exact gives_somePart (gives_optionalPart h ht hf (by rw [isLeafOf, htarget]; rfl) n)
  · rw [htarget]
    exact gives_somePart (gives_optionalPart h ht hf (by rw [isLeafOf, htarget]; rfl) n)
  · rw [htarget, ok_bind]
    dsimp only
    split
    · exact gives_madePart id (by decide) (.named (.related hf rfl hname.symm))
    · exact gives_madePart id (by decide) (.named (.related hf rfl hname.symm))

theorem gives_optionalParts {fields : List ModelField} (hfields : fields ⊆ t.fields)
    (hleaf : ∀ f ∈ fields, isLeafOf g f = true) (n : Nat) :
    Gives (InputParts g t n)
      (fields.mapM (optionalField (fresh g)) >>= fun entries => pure (.ofEntries entries)) := by
  have hfield : ∀ f ∈ fields, Gives (fun entry => InputPart g t n entry.2.type) (optionalField (fresh g) f) :=
    fun f hf => (gives_optionalPart h ht (hfields hf) (hleaf f hf) n).bind fun e he => gives_ok he
  exact (Gives.mapM hfield).bind fun entries hentries => gives_ok (.ofEntries hentries)

/-! ## Nested operations -/

omit h ht in
/-- What is offered keeps the order of the candidates. -/
theorem sublist_keys_offered (candidates : List (String × Option Handle)) :
    ((offered candidates).map Prod.fst).Sublist (candidates.map Prod.fst) := by
  induction candidates with
  | nil => exact .slnil
  | cons candidate candidates ih =>
    obtain ⟨name, made⟩ := candidate
    cases made with
    | none => exact ih.cons name
    | some x => exact ih.cons_cons name

/-- Operations with different names that take types with a property. -/
structure OperationsOf (P : Handle → Prop) (operations : Operations) : Prop where
  nodup : (operations.map Prod.fst).Nodup
  takes : ∀ operation ∈ operations, P operation.2

omit h ht in
theorem operationsOf_offered {P : Handle → Prop} {candidates : List (String × Option Handle)}
    (hnodup : (candidates.map Prod.fst).Nodup) (hmade : ∀ c ∈ candidates, ∀ x ∈ c.2, P x) :
    OperationsOf P (offered candidates) where
  nodup := hnodup.sublist (sublist_keys_offered candidates)
  takes operation hoperation := by
    obtain ⟨c, hc, heq⟩ := List.mem_filterMap.mp hoperation
    obtain ⟨x, hx, rfl⟩ := Option.map_eq_some_iff.mp heq
    exact hmade c hc x hx

omit h ht in
/-- A part that is missing counts as one that does not exist. -/
theorem operationsOf_needed {P : Handle → Prop} {parts : List (String × Option Handle)}
    (hnodup : (parts.map Prod.fst).Nodup) (habsent : P .absent) (hmade : ∀ c ∈ parts, ∀ x ∈ c.2, P x) :
    OperationsOf P (needed parts) where
  nodup := by
    rw [needed, List.map_map]
    exact hnodup
  takes operation hoperation := by
    obtain ⟨c, hc, rfl⟩ := List.mem_map.mp hoperation
    cases hx : c.2 with
    | none => exact habsent
    | some x => exact hmade c hc x hx

omit h ht in
/-- The nested operations on a type take other inputs of the type. -/
theorem gives_ownInput {k : Kind} (hk : k.isInput = true) (a : Args) :
    Gives (fun made => ∀ x ∈ made, x = .made ⟨k, t.name, a⟩) (fresh g ⟨k, t.name, a⟩) :=
  gives_fresh (by rintro rfl; cases hk)

omit h ht in
theorem gives_connect (embedded : Bool) :
    Gives (fun made => ∀ x ∈ made, x = .made (.of .whereUnique t.name))
      (if embedded then pure none else fresh g (.of .whereUnique t.name)) := by
  cases embedded with
  | true => exact gives_ok nofun
  | false => exact gives_ownInput rfl .none

omit h ht in
theorem gives_createOperations : Gives (OperationsOf (Mentions g t)) (createOperations (fresh g) t) := by
  refine (gives_ownInput (k := .create) rfl .none).bind fun create hcreate => ?_
  refine (gives_connect t.isEmbedded).bind fun connect hconnect => gives_ok ?_
  refine operationsOf_offered (by decide : ["create", "connect"].Nodup) ?_
  simp only [List.forall_mem_cons]
  exact ⟨fun x hx => hcreate x hx ▸ .own rfl rfl, fun x hx => hconnect x hx ▸ .own rfl rfl, nofun⟩

omit h ht in
theorem gives_updateOneOperations (required : Bool) :
    Gives (OperationsOf (Mentions g t)) (updateOneOperations (fresh g) t required) := by
  have hflag : ∀ b : Bool, ∀ x ∈ (if b then some (.scalar .boolean) else none : Option Handle),
      Mentions g t x := by
    rintro (_ | _) x hx
    · cases hx
    · cases hx
      exact .flag
  refine (gives_ownInput (k := .create) rfl .none).bind fun create hcreate => ?_
  refine (gives_ownInput (k := .update) rfl .isNested).bind fun update hupdate => ?_
  refine (gives_ownInput (k := .upsertNested) rfl .none).bind fun upsert hupsert => ?_
  refine (gives_connect t.isEmbedded).bind fun connect hconnect => gives_ok ?_
  refine operationsOf_offered
    (by decide : ["create", "update", "upsert", "delete", "disconnect", "connect"].Nodup) ?_
  simp only [List.forall_mem_cons]
  exact ⟨fun x hx => hcreate x hx ▸ .own rfl rfl, fun x hx => hupdate x hx ▸ .own rfl rfl,
    fun x hx => hupsert x hx ▸ .own rfl rfl, hflag _, hflag _, fun x hx => hconnect x hx ▸ .own rfl rfl, nofun⟩

omit h ht in
theorem gives_updateManyOperations :
    Gives (OperationsOf (Mentions g t)) (updateManyOperations (fresh g) t) := by
  refine (gives_ownInput (k := .whereUnique) rfl .none).bind fun unique hunique => ?_
  refine (gives_ownInput (k := .create) rfl .none).bind fun create hcreate => ?_
  refine (gives_ownInput (k := .updateWithWhereUnique) rfl .none).bind fun update hupdate => gives_ok ?_
  have hwhere : ∀ x ∈ unique, Mentions g t x := fun x hx => hunique x hx ▸ .own rfl rfl
  have hconnect : ∀ x ∈ (if t.isEmbedded then none else unique), Mentions g t x := by
    cases t.isEmbedded with
    | true => exact nofun
    | false => exact hwhere
  refine operationsOf_offered (by decide : ["create", "update", "delete", "connect", "disconnect"].Nodup) ?_
  simp only [List.forall_mem_cons]
  exact ⟨fun x hx => hcreate x hx ▸ .own rfl rfl, fun x hx => hupdate x hx ▸ .own rfl rfl, hwhere, hconnect,
    hconnect, nofun⟩

omit h ht in
/-- The parts of a change to one of many items are lower than the change. -/
theorem gives_updateSelectedParts :
    Gives (fun parts => OperationsOf (fun x => Mentions g t x ∧ x.height < 2) (needed parts))
      (updateSelectedParts (fresh g) t) := by
  refine (gives_ownInput (k := .whereUnique) rfl .none).bind fun unique hunique => ?_
  refine (gives_ownInput (k := .update) rfl .isNested).bind fun update hupdate => gives_ok ?_
  refine operationsOf_needed (by decide : ["where", "data"].Nodup) ⟨.absent, Nat.two_pos⟩ ?_
  simp only [List.forall_mem_cons]
  exact ⟨fun x hx => hunique x hx ▸ ⟨.own rfl rfl, Nat.two_pos⟩,
    fun x hx => hupdate x hx ▸ ⟨.own rfl rfl, Nat.two_pos⟩, nofun⟩

omit h ht in
/-- So are those of a change to an item that may have to be created. -/
theorem gives_upsertParts :
    Gives (fun parts => OperationsOf (fun x => Mentions g t x ∧ x.height < 2) (needed parts))
      (upsertParts (fresh g) t) := by
  refine (gives_ownInput (k := .update) rfl .isNested).bind fun update hupdate => ?_
  refine (gives_ownInput (k := .create) rfl .none).bind fun create hcreate => gives_ok ?_
  refine operationsOf_needed (by decide : ["update", "create"].Nodup) ⟨.absent, Nat.two_pos⟩ ?_
  simp only [List.forall_mem_cons]
  exact ⟨fun x hx => hupdate x hx ▸ ⟨.own rfl rfl, Nat.two_pos⟩,
    fun x hx => hcreate x hx ▸ ⟨.own rfl rfl, Nat.one_lt_two⟩, nofun⟩

omit h ht in
/-- Operations become fields of the same names, with the same modifiers on all of them. -/
theorem inputParts_operationFields {P : Handle → Prop} {n : Nat} {modify : TypeExpr Handle → TypeExpr Handle}
    {operations : Operations} (hoperations : OperationsOf P operations)
    (hmodify : ∀ x, P x → InputPart g t n (modify (.named x))) :
    InputParts g t n (operationFields modify operations) where
  nodup := by
    rw [operationFields, List.map_map]
    exact hoperations.nodup
  part := List.forall_mem_map.mpr fun operation hoperation => hmodify _ (hoperations.takes operation hoperation)

omit h ht in
theorem gives_operationParts {P : Handle → Prop} {n : Nat} {modify : TypeExpr Handle → TypeExpr Handle}
    {operations : Except Error Operations} (hoperations : Gives (OperationsOf P) operations)
    (hmodify : ∀ x, P x → InputPart g t n (modify (.named x))) :
    Gives (InputParts g t n) (operations >>= fun made => pure (operationFields modify made)) :=
  hoperations.bind fun _ hmade => gives_ok (inputParts_operationFields hmade hmodify)

omit h ht in
/-- Where all parts are needed, each of them has to be lower than the input itself. -/
theorem gives_neededParts {n : Nat} {parts : Except Error (List (String × Option Handle))}
    (hparts : Gives (fun parts => OperationsOf (fun x => Mentions g t x ∧ x.height < n) (needed parts)) parts) :
    Gives (InputParts g t n) (parts >>= fun made => pure (operationFields .nonNull (needed made))) :=
  hparts.bind fun _ hmade => gives_ok (inputParts_operationFields hmade fun _ hx => .nonNull hx.1 hx.2)

/-! ## All inputs -/

/-- The fields of every input are parts of its height. -/
theorem gives_inputParts (r : Request) :
    Gives (InputParts g t r.kind.height) (inputFields g (fresh g) r t) := by
  unfold inputFields
  split
  · intro fields hfields
    rw [((whereFields_eq_ok_iff h ht).mp hfields).2]
    exact inputParts_promisedWhere h ht _
  · unfold whereUniqueFields
    rw [ofExcept_eq, uniqueFields_eq h ht, ok_bind]
    refine gives_optionalParts h ht (List.filter_subset_self _) (fun f hf => ?_) _
    exact isLeafOf_of_isUnique h ht (List.mem_filter.mp hf).1 (List.mem_filter.mp hf).2
  -- A create input needs what it relates to, and a nested part needs all of its parts; the other inputs can be empty.
  · rename_i hkind
    rw [hkind]
    exact gives_chosenParts fun f hf => gives_createPart h ht (List.mem_filter.mp hf).1
  · exact gives_chosenParts fun f hf => gives_updatePart h ht (List.mem_filter.mp hf).1 _
  · unfold updateManyMutationFields
    rw [ofExcept_eq, writableLeafFields_eq h ht, ok_bind]
    refine gives_optionalParts h ht ?_ (fun f hf => (List.mem_filter.mp hf).2) _
    exact List.Subset.trans (List.filter_subset_self _) (List.filter_subset_self _)
  · exact gives_operationParts gives_createOperations fun _ hx => .named hx
  · exact gives_operationParts gives_createOperations fun _ hx => .listOf hx
  · exact gives_operationParts (gives_updateOneOperations _) fun _ hx => .named hx
  · exact gives_operationParts gives_updateManyOperations fun _ hx => .listOf hx
  · rename_i hkind
    rw [hkind]
    exact gives_neededParts gives_updateSelectedParts
  · rename_i hkind
    rw [hkind]
    exact gives_neededParts gives_upsertParts
  · exact gives_ok ⟨List.nodup_nil, nofun⟩

end Fields

end OpenCrud.Generate
