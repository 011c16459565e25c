import OpenCrud.Proofs.Datamodel.Declared
import OpenCrud.Proofs.Generate.Assembled
import OpenCrud.Proofs.Generate.FilterFields
import OpenCrud.Proofs.Generate.Memory

/-!
# What a schema shows of a document

The objects and enums that a document defines appear in the schema under their names. What they look like there is
told in terms of the document alone (`shownField?`): a field keeps its name and its place, its type changes only
where it is a list, and a list of items with an identity of their own takes arguments. Main result:
`shownDocument_of_parse`.
-/

namespace OpenCrud.Generate

open Sdl Datamodel
open MonadExcept (ofExcept)

/-! ## What is shown -/

/-- What the name of a type stands for: values without parts, or items of an object type. -/
inductive Meaning where
  | leaf
  | object (d : ObjectDef)

/-- Whether values have no parts: they are those of a scalar or an enum. -/
def Meaning.isLeaf : Meaning → Bool
  | .leaf => true
  | .object _ => false

/-- What the name of a type stands for in a document. -/
def meaning? (document : Document) (name : String) : Option Meaning :=
  if Scalar.isScalar name then some .leaf
  else match document.find? fun d => d.typeName?.any (·.text = name) with
    | some (.enum _) => some .leaf
    | some (.object d) => some (.object d)
    | _ => none

/-- Whether a field is declared as a list. -/
def isListed : TypeExpr Name → Bool
  | .named _ => false
  | .list _ => true
  | .nonNull inner => isListed inner

/-- The type that a field is shown with. The items of a list are not null, and a list of objects is never
required. -/
def shownType? (isLeaf : Bool) : TypeExpr Name → Option (TypeExpr String)
  | .named n => some (.named n.text)
  | .nonNull (.named n) => some (.nonNull (.named n.text))
  | .list (.named n) | .list (.nonNull (.named n)) => some (.list (.nonNull (.named n.text)))
  | .nonNull (.list (.named n)) | .nonNull (.list (.nonNull (.named n))) =>
    some (if isLeaf then .nonNull (.list (.nonNull (.named n.text))) else .list (.nonNull (.named n.text)))
  | _ => none

/-- Whether the items of an object type can be ordered by one of its fields. -/
def isOrdered (document : Document) (d : ObjectDef) : Bool :=
  d.fields.any fun f => !isListed f.type && (meaning? document f.type.base.text).any (·.isLeaf)

/-- The arguments of a list of items: a filter, an order where there is one, and the page. -/
def shownListArgs (document : Document) (d : ObjectDef) : FieldMap (InputField String) :=
  [("where", { type := .named (d.name.text ++ "WhereInput") })] ++
    (if isOrdered document d then [("orderBy", { type := .named (d.name.text ++ "OrderByInput") })] else []) ++
    [("skip", { type := .named "Int" }), ("after", { type := .named "String" }),
     ("before", { type := .named "String" }), ("first", { type := .named "Int" }),
     ("last", { type := .named "Int" })]

/-- The arguments that a field is shown with. Embedded items have no identity of their own. -/
def shownArgs (document : Document) (d : FieldDef) : Meaning → FieldMap (InputField String)
  | .leaf => []
  | .object related =>
    if isListed d.type && !hasDirective related.directives "embedded" then shownListArgs document related
    else []

/-- The field that a schema shows for the definition of a field. -/
def shownField? (document : Document) (d : FieldDef) : Option (String × OutputField String) := do
  let meaning ← meaning? document d.type.base.text
  let type ← shownType? meaning.isLeaf d.type
  return (d.name.text, { type, args := shownArgs document d meaning, description := d.description })

/-- That a schema shows what a document defines. -/
structure ShownDocument (document : Document) (s : Schema) : Prop where
  object : ∀ d : ObjectDef, .object d ∈ document →
    ∃ interfaces fields, d.fields.mapM (shownField? document) = some fields ∧
      s.find? d.name.text =
        some { name := d.name.text, description := d.description, body := .object interfaces fields }
  enum : ∀ d : EnumDef, .enum d ∈ document →
    s.find? d.name.text =
      some { name := d.name.text, body := .enum ((d.values.map (·.name.text)).eraseDups.map (·, {})) }

/-- A field of an object with names in the place of types. -/
def byName (entry : String × OutputField Handle) : String × OutputField String :=
  (entry.1, entry.2.map Handle.name)

theorem outputFields_map (b : TypeBody Handle) : (b.map Handle.name).outputFields = b.outputFields.map byName := by
  cases b <;> rfl

/-! ## Shapes -/

/-- What is shown of a type is known from its shape. -/
theorem shown_of_shape {e : TypeExpr Name} {shape : FieldShape} (h : FieldShape.ofTypeExpr? e = some shape) :
    e.base.text = shape.typeName ∧ isListed e = shape.isList ∧
      shownType? true e = some (requiredIf shape.isRequired
        (if shape.isList then listOf (.named shape.typeName) else .named shape.typeName)) ∧
      shownType? false e = some (if shape.isList then listOf (.named shape.typeName)
        else requiredIf shape.isRequired (.named shape.typeName)) := by
  unfold FieldShape.ofTypeExpr? at h
  split at h <;> cases h <;> exact ⟨rfl, rfl, rfl, rfl⟩

theorem map_requiredIf {ρ σ : Type} (f : ρ → σ) (required : Bool) (t : TypeExpr ρ) :
    (requiredIf required t).map f = requiredIf required (t.map f) := by
  cases required <;> rfl

section Shown

variable {g : TypeGraph} (h : WellFormed g.types) {document : Document} (hd : DeclaredBy g.types document)

include h hd

/-! ## Names -/

theorem meaning?_of_mem {t : ModelType} (ht : t ∈ g.types) : ∃ d, t.DeclaredBy d ∧
    meaning? document t.name = match d with
      | .enum _ => some .leaf
      | .object d => some (.object d)
      | _ => none := by
  have hfind := hd.find? t.name
  have hmem : g.types.find? (·.name = t.name) = some t := find?_of_mem h ht
  rw [hmem] at hfind
  cases hdef : document.find? fun d => d.typeName?.any (·.text = t.name) with
  | none =>
    rw [hdef] at hfind
    cases hfind
  | some d =>
    rw [hdef] at hfind
    cases hfind with
    | some hdeclared =>
      refine ⟨d, hdeclared, ?_⟩
      rw [meaning?, (h.type t ht).not_scalar, if_neg Bool.false_ne_true, hdef]
      cases d <;> rfl

theorem meaning?_enum {t : ModelType} (ht : t ∈ g.types) (henum : t.isEnum = true) :
    meaning? document t.name = some .leaf := by
  obtain ⟨d, hdeclared, hmeaning⟩ := meaning?_of_mem h hd ht
  cases hdeclared with
  | enum => exact hmeaning
  | object _ hobject =>
    rw [henum] at hobject
    cases hobject

theorem meaning?_object {t : ModelType} (ht : t ∈ g.types) (henum : t.isEnum = false) :
    ∃ d, t.DeclaredBy (.object d) ∧ meaning? document t.name = some (.object d) := by
  obtain ⟨d, hdeclared, hmeaning⟩ := meaning?_of_mem h hd ht
  cases hdeclared with
  | enum _ henum' =>
    rw [henum] at henum'
    cases henum'
  | object hname henum hembedded hdescription hfields =>
    exact ⟨_, .object hname henum hembedded hdescription hfields, hmeaning⟩

/-- The name of a field's type stands for what the field points at. -/
theorem leaf_or_object {t : ModelType} (ht : t ∈ g.types) {f : ModelField} (hf : f ∈ t.fields) :
    (isLeafOf g f = true ∧ meaning? document f.typeName = some .leaf) ∨
      ∃ u ∈ g.types, f.typeName = u.name ∧ target g f = .ok (.relation u) ∧
        ∃ d, u.DeclaredBy (.object d) ∧ meaning? document f.typeName = some (.object d) := by
  rcases target_of_mem h ht hf with ⟨s, hname, htarget⟩ | ⟨u, hu, hname, henum, htarget⟩ |
    ⟨u, hu, hname, henum, _, htarget⟩
  · have hscalar : Scalar.isScalar s.name = true := by simp [Scalar.isScalar]
    refine .inl ⟨by rw [isLeafOf, htarget]; rfl, ?_⟩
    rw [hname, meaning?, if_pos hscalar]
  · refine .inl ⟨by rw [isLeafOf, htarget]; rfl, ?_⟩
    rw [hname, meaning?_enum h hd hu henum]
  · obtain ⟨d, hdeclared, hmeaning⟩ := meaning?_object h hd hu henum
    exact .inr ⟨u, hu, hname, htarget, d, hdeclared, hname ▸ hmeaning⟩

theorem isLeafOf_eq {t : ModelType} (ht : t ∈ g.types) {f : ModelField} (hf : f ∈ t.fields) :
    isLeafOf g f = (meaning? document f.typeName).any (·.isLeaf) := by
  rcases leaf_or_object h hd ht hf with ⟨hleaf, hmeaning⟩ | ⟨u, _, _, htarget, d, _, hmeaning⟩
  · rw [hleaf, hmeaning]
    rfl
  · rw [isLeafOf, htarget, hmeaning]
    rfl

/-! ## Arguments -/

theorem isOrderable_eq {t : ModelType} (ht : t ∈ g.types) {d : ObjectDef} (hdeclared : t.DeclaredBy (.object d)) :
    isOrderable g t = isOrdered document d := by
  -- The fields and their definitions go together, so what is asked of them has the same answers.
  have hmap : t.fields.map (fun f => !f.isList && isLeafOf g f) =
      d.fields.map fun f => !isListed f.type && (meaning? document f.type.base.text).any (·.isLeaf) := by
    rw [← List.forall₂_eq_eq_eq, List.forall₂_map_left_iff, List.forall₂_map_right_iff]
    refine hdeclared.fields.imp fun f e hfe => ?_
    obtain ⟨hbase, hlist, _⟩ := shown_of_shape hfe.2.shape
    rw [isLeafOf_eq h hd ht hfe.1, hbase, hlist]
  have hany := congrArg (List.any · id) hmap
  rw [List.any_map, List.any_map] at hany
  exact hany

theorem map_listArgs {t : ModelType} (ht : t ∈ g.types) {d : ObjectDef} (hdeclared : t.DeclaredBy (.object d)) :
    (listArgs g t).map (fun entry => (entry.1, entry.2.map Handle.name)) = shownListArgs document d := by
  have horder := isOrderable_eq h hd ht hdeclared
  cases hdeclared with
  | object hname =>
    rw [listArgs, shownListArgs, ← horder, ← hname]
    cases isOrderable g t <;> rfl

/-! ## Fields -/

variable (hfree : ∀ t ∈ g.types, t.name ∉ introspectionNames) {t : ModelType} (ht : t ∈ g.types)

include hfree ht

omit hd in
theorem exists_leafType {f : ModelField} (hf : f ∈ t.fields) (hleaf : isLeafOf g f = true) :
    ∃ x, leafType (fresh g) f = .ok (.named x) ∧ x.name = f.typeName := by
  rcases target_of_mem h ht hf with ⟨s, hname, _⟩ | ⟨u, hu, hname, henum, _⟩ | ⟨u, _, _, _, _, htarget⟩
  · exact ⟨.scalar s, leafType_scalar_fresh h hname, hname.symm⟩
  · refine ⟨.made (.of .enum u.name), ?_, hname.symm⟩
    rw [leafType_enum_fresh h hu henum hname, if_neg (hfree u hu)]
  · rw [isLeafOf, htarget] at hleaf
    cases hleaf

omit hd in
/-- The field of an object for a field that points at a scalar or an enum. -/
theorem objectField_leaf {f : ModelField} (hf : f ∈ t.fields) (hleaf : isLeafOf g f = true) :
    ∃ x : Handle, x.name = f.typeName ∧ objectField g (fresh g) f = .ok (f.name,
      { type := requiredIf f.isRequired (if f.isList then listOf (.named x) else .named x)
        description := f.description }) := by
  obtain ⟨x, hx, hname⟩ := exists_leafType h hfree ht hf hleaf
  refine ⟨x, hname, ?_⟩
  rw [objectField, ofExcept_eq]
  rcases target_of_isLeafOf hleaf with ⟨s, htarget⟩ | ⟨u, htarget⟩
  · rw [htarget, ok_bind, outputType, optionalType, hx]
    rfl
  · rw [htarget, ok_bind, outputType, optionalType, hx]
    rfl

omit hd ht in
/-- The field of an object for a field that points at objects. -/
theorem objectField_relation {f : ModelField} {u : ModelType} (hu : u ∈ g.types)
    (htarget : target g f = .ok (.relation u)) : objectField g (fresh g) f = .ok (f.name,
      { type := withModifiers f (.named (.made (.of .object u.name)))
        args := if f.isList && !u.isEmbedded then listArgs g u else []
        description := f.description }) := by
  rw [objectField, ofExcept_eq, htarget, ok_bind]
  dsimp only
  rw [type_object_fresh h hu, if_neg (hfree u hu), ok_bind, manyArgs_fresh h hu]
  split <;> rfl

/-- The field of an object is the one that is shown for the definition of the field. -/
theorem exists_objectField {f : ModelField} (hf : f ∈ t.fields) {d : FieldDef} (hfd : f.DeclaredBy d) :
    ∃ entry, objectField g (fresh g) f = .ok entry ∧
      shownField? document d = some (byName entry) := by
  obtain ⟨hbase, hlist, hleafType, hobjectType⟩ := shown_of_shape hfd.shape
  dsimp only at hbase hlist hleafType hobjectType
  rw [shownField?, hbase]
  rcases leaf_or_object h hd ht hf with ⟨hleaf, hmeaning⟩ | ⟨u, hu, hname, htarget, r, hdeclared, hmeaning⟩
  · obtain ⟨x, hname, hentry⟩ := objectField_leaf h hfree ht hf hleaf
    have htype : (requiredIf f.isRequired (if f.isList then listOf (.named x) else .named x)).map Handle.name =
        requiredIf f.isRequired (if f.isList then listOf (.named f.typeName) else .named f.typeName) := by
      rw [map_requiredIf, ← hname]
      split <;> rfl
    have hshown : shownType? Meaning.leaf.isLeaf d.type = _ := hleafType
    refine ⟨_, hentry, ?_⟩
    rw [byName, OutputField.map, htype, hmeaning, Option.bind_eq_bind, Option.bind_some, hshown, hfd.name,
      hfd.description]
    rfl
  -- A list of items takes the arguments of lists, unless the items are embedded.
  · have hargs : (if f.isList && !u.isEmbedded then listArgs g u else []).map
        (fun entry => (entry.1, entry.2.map Handle.name)) = shownArgs document d (.object r) := by
      have hlistArgs := map_listArgs h hd hu hdeclared
      cases hdeclared with
      | object _ _ hembedded =>
        rw [shownArgs, hlist, ← hembedded, ← hlistArgs]
        split <;> rfl
    have htype : (withModifiers f (.named (.made (.of .object u.name)))).map Handle.name =
        if f.isList then listOf (.named f.typeName) else requiredIf f.isRequired (.named f.typeName) := by
      rw [withModifiers, hname]
      split
      · rfl
      · exact map_requiredIf _ _ _
    have hshown : shownType? (Meaning.object r).isLeaf d.type = _ := hobjectType
    refine ⟨_, objectField_relation h hfree hu htarget, ?_⟩
    rw [byName, OutputField.map, htype, hargs, hmeaning, Option.bind_eq_bind, Option.bind_some, hshown, hfd.name,
      hfd.description]
    rfl

omit h hd hfree ht in
theorem mapM_of_forall₂ {ε α β γ δ : Type} {f : α → Except ε γ} {f' : β → Option δ} {k : γ → δ} {as : List α}
    {bs : List β} (h : List.Forall₂ (fun a b => ∃ c, f a = .ok c ∧ f' b = some (k c)) as bs) :
    ∃ cs, as.mapM f = .ok cs ∧ bs.mapM f' = some (cs.map k) := by
  induction h with
  | nil => exact ⟨[], rfl, rfl⟩
  | cons hab _ ih =>
    obtain ⟨c, hc, hc'⟩ := hab
    obtain ⟨cs, hcs, hcs'⟩ := ih
    refine ⟨c :: cs, ?_, ?_⟩
    · rw [List.mapM_cons, hc, hcs]
      rfl
    · rw [List.mapM_cons, hc', hcs']
      rfl

/-- The fields of an object are the ones that are shown for its definition, each in its place. -/
theorem exists_objectFields {d : ObjectDef} (hdeclared : t.DeclaredBy (.object d)) :
    ∃ fields, objectFields g (fresh g) t = .ok fields ∧
      d.fields.mapM (shownField? document) = some (fields.map byName) := by
  have hshown : List.Forall₂ (fun f e => ∃ entry, objectField g (fresh g) f = .ok entry ∧
      shownField? document e = some (byName entry)) t.fields d.fields :=
    hdeclared.fields.imp fun _ _ hfe => exists_objectField h hd hfree ht hfe.1 hfe.2
  obtain ⟨entries, hentries, hshown⟩ := mapM_of_forall₂ hshown
  exact ⟨entries, (objectFields_eq_ok_iff h ht).mpr hentries, hshown⟩

omit hd hfree in
theorem define_enum : define g (fresh g) (.made (.of .enum t.name)) =
    .ok { name := t.name, body := .enum (.ofEntries (t.values.map (·, {}))) } := by
  have hvalues : enumValues g (.of .enum t.name) = .ok t.values := by
    rw [enumValues, subject_eq h ht rfl]
    rfl
  rw [define, body, Request.of, ← Request.of, hvalues]
  rfl

end Shown

/-! ## Main result -/

/-- A schema shows what the document that it is made from defines. -/
theorem shownDocument_of_parse {database : Database} {source : List Char} {types : List ModelType}
    (h : parse database source = .ok types) {s : Schema} (hs : schema (.ofTypes types) = .ok s) :
    ∃ document, Document.parse source = .ok document ∧ ShownDocument document s := by
  have hwf := (wellFormed_of_parse h).ofTypes
  obtain ⟨document, hdocument, hdeclares⟩ := declaredBy_of_parse h
  rw [← TypeGraph.types_ofTypes (wellFormed_of_parse h).nodup_names] at hdeclares
  rw [schema_eq_assemble] at hs
  have hassembled := assembled_of_eq_ok hwf hs
  refine ⟨document, hdocument, fun d hd => ?_, fun d hd => ?_⟩
  · obtain ⟨t, ht, hdeclared⟩ := exists_of_forall₂ hdeclares hd
    obtain ⟨fields, hfields, hshown⟩ := exists_objectFields hwf hdeclares hassembled.free ht hdeclared
    cases hdeclared with
    | object hname henum _ hdescription _ =>
      -- A declared type is one that generation starts from, so the schema has what it is made of.
      obtain ⟨made, hmade, _⟩ := hassembled.exists_define hwf (Assembled.reached_object ht henum)
      have hfind := hassembled.find? _ (Assembled.reached_object ht henum) made hmade
      obtain ⟨interfaces, fields', hfields', rfl⟩ := exists_of_define_object hwf ht hmade
      obtain rfl : fields' = fields := Except.ok.inj (hfields'.symm.trans hfields)
      refine ⟨interfaces.map Handle.name, _, hshown, ?_⟩
      rw [← hname, ← hdescription]
      exact hfind
  · obtain ⟨t, ht, hdeclared⟩ := exists_of_forall₂ hdeclares hd
    cases hdeclared with
    | enum hname henum hvalues =>
      have hreached := Assembled.reached_ownType ht
      rw [ownType, henum, if_pos rfl] at hreached
      have hfind := hassembled.find? _ hreached _ (define_enum hwf ht)
      rw [← hname, ← hvalues, ← FieldMap.ofEntries_map_const]
      exact hfind

/-- Shelves with their books, with an enum that declares a value twice. -/
def shelfSource : List Char :=
  "type Shelf { books: [Book!]! labels: [String]! } type Book { genre: Genre! } ".toList ++
    "enum Genre { NOVEL POEM NOVEL }".toList

theorem shownDocument_shelf : ∃ types s, parse .document shelfSource = .ok types ∧
    schema (.ofTypes types) = .ok s ∧
    ∃ document, Document.parse shelfSource = .ok document ∧ ShownDocument document s := by
  obtain ⟨types, s, hparse, hs⟩ : ∃ types s, parse .document shelfSource = .ok types ∧
      schema (.ofTypes types) = .ok s :=
    exists_schema_of_isOk (by decide +kernel)
  exact ⟨types, s, hparse, hs, shownDocument_of_parse hparse hs⟩

end OpenCrud.Generate
