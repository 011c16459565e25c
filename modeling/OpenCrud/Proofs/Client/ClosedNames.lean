import OpenCrud.Proofs.Client.ExistenceChecks
import OpenCrud.Proofs.Client.ShownTypes
import OpenCrud.Proofs.Generate.ObjectFields

/-!
# When a client declares what it mentions

The text of a client mentions names of types: in the types of fields, arguments and results, in what an interface
extends, and in the checks for existence. Types whose names begin with two underscores are not declared. Main
result: for an accepted datamodel with a schema every name that is mentioned is declared exactly where no name of a
model and no name that a field of a type that shows refers to begins like that (`closedNames_iff`).
-/

namespace OpenCrud.Client

open Datamodel Generate

/-! ## What is declared and what is mentioned -/

/-- The names that a client declares for the types of a schema. The interface of items that are found by their
identifiers is always there. -/
def typeNames (s : Schema) : List String := "Node" :: (declaredTypes s).flatMap ownNames

/-- The names of types that the text of a client mentions. -/
def mentionedNames (language : Language) (s : Schema) (types : List ModelType) (options : ClientOptions) :
    List String :=
  (sourcePieces language s types options).filterMap Piece.mentioned?

theorem category_ne_union (x : Handle) : x.category ≠ .union := by
  cases x with
  | made r =>
    have hkind : ∀ k : Kind, k.category ≠ .union := by
      intro k
      cases k <;> decide
    exact hkind r.kind
  | _ => exact nofun

theorem name_of_interface {x : Handle} (hx : x.category = .interface) : x.name = "Node" := by
  cases x with
  | made r =>
    obtain ⟨kind, subject, args⟩ := r
    cases kind
    case node => rfl
    all_goals cases hx
  | _ => cases hx

/-- That a client declares the names under which a type is mentioned. -/
structure NamesDeclared (s : Schema) (x : Handle) : Prop where
  output : outputName x.name ∈ typeNames s
  input : inputName x.name ∈ typeNames s
  plain : x.category ≠ .scalar → x.name ∈ typeNames s
  node : x.category = .object ∨ x.category = .interface → nodeName (outputName x.name) ∈ typeNames s

/-- Whether a piece mentions nothing but what is declared. -/
def Closed (s : Schema) (p : Piece) : Prop := ∀ n ∈ p.mentioned?, n ∈ typeNames s

theorem closed_of_eq_none {s : Schema} {p : Piece} (hp : p.mentioned? = none) : Closed s p := by
  intro n hn
  rw [hp] at hn
  cases hn

theorem closed_text (s : Schema) (content : String) : Closed s (.text content) := closed_of_eq_none rfl

theorem closed_mention {s : Schema} {n : String} (hn : n ∈ typeNames s) : Closed s (.mention n) := by
  rintro _ ⟨⟩
  exact hn

theorem closed_aliasPieces (s : Schema) (name type : String) : ∀ p ∈ aliasPieces name type, Closed s p :=
  List.forall_mem_cons.mpr ⟨closed_of_eq_none rfl, List.forall_mem_singleton.mpr (closed_text s _)⟩

theorem closed_scalarPieces (s : Schema) (language : Language) (t : NamedType String) :
    ∀ p ∈ scalarPieces language t, Closed s p := by
  have halias := closed_aliasPieces s
  unfold scalarPieces
  refine List.forall_mem_cons.mpr ⟨closed_text s _, ?_⟩
  split
  · exact List.forall_mem_append.mpr ⟨halias _ _, List.forall_mem_cons.mpr ⟨closed_text s _, halias _ _⟩⟩
  · exact halias _ _

theorem mem_refs_of_outputFields {ρ : Type} {b : TypeBody ρ} {entry : String × OutputField ρ}
    (hentry : entry ∈ b.outputFields) {y : ρ} (hy : y ∈ entry.2.refs) : y ∈ b.refs := by
  cases b with
  | object | interface => exact List.mem_append_right _ (List.mem_flatMap.mpr ⟨entry, hentry, hy⟩)
  | _ => cases hentry

section Generated

variable {g : TypeGraph} (h : WellFormed g.types) {s : Schema} (hs : Assembled g s)

include h hs

/-! ## Names that are declared -/

omit h hs in
theorem mem_typeNames {u : NamedType String} (hu : u ∈ declaredTypes s) {n : String} (hn : n ∈ ownNames u) :
    n ∈ typeNames s :=
  List.mem_cons_of_mem _ (List.mem_flatMap.mpr ⟨u, hu, hn⟩)

/-- No name that is declared is hidden. -/
theorem isHiddenName_typeNames {n : String} (hn : n ∈ typeNames s) : isHiddenName n = false := by
  rcases List.mem_cons.mp hn with rfl | hn
  · decide
  · obtain ⟨u, hu, hn⟩ := List.mem_flatMap.mp hn
    rcases List.mem_append.mp hn with hn | hn
    · exact isHiddenName_derived h hs hu hn
    · rw [(mem_plainNames hn).1, (mem_declaredTypes.mp hu).2.1]

omit h hs in
theorem mem_typeNames_of_category {x : Handle} {u : NamedType String} (hu : u ∈ declaredTypes s)
    (hname : u.name = x.name) (hcategory : Category.of u = x.category)
    (hscalar : x.category = .scalar → x.name ≠ Scalar.id.name) : x.name ∈ typeNames s := by
  by_cases hinterface : x.category = .interface
  · rw [name_of_interface hinterface]
    exact List.mem_cons_self
  · rw [← hname] at hscalar ⊢
    exact mem_typeNames hu (List.mem_append_right _
      (mem_plainNames_of_category (hcategory ▸ hscalar) (hcategory ▸ hinterface)))

/-- The names under which a type is mentioned are declared, if the type shows. -/
theorem names_mem_typeNames {x : Handle} (hx : x.ReachedFrom g (schemaRoots g)) (hshown : Shown x) :
    NamesDeclared s x := by
  have hvalid := valid_of_reachedFrom h valid_schemaRoots hx
  obtain ⟨hvisible, hroot⟩ := isHiddenName_eq_false_of_shown h hvalid hshown
  obtain ⟨u, hu, hname, hcategory⟩ := exists_declaredType h hs hx hvisible hroot
  by_cases hid : x.name = Scalar.id.name
  · -- Nothing but the identifier is called so.
    obtain rfl := eq_of_common h (mem_commonTypes_scalar .id) hvalid hid.symm
    have hderived := derivedNames_id hcategory hname
    refine ⟨mem_typeNames hu (List.mem_append_left _ ?_), mem_typeNames hu (List.mem_append_left _ ?_),
      fun hscalar => absurd rfl hscalar, ?_⟩
    · rw [hderived]
      exact List.mem_cons_of_mem _ List.mem_cons_self
    · rw [hderived]
      exact List.mem_cons_self
    · rintro (hobject | hinterface)
      · cases hobject
      · cases hinterface
  · have hplain := mem_typeNames_of_category hu hname hcategory fun _ => hid
    have houtput : outputName x.name = x.name := if_neg hid
    have hinput : inputName x.name = x.name := if_neg hid
    refine ⟨houtput.symm ▸ hplain, hinput.symm ▸ hplain, fun _ => hplain, fun hnode => ?_⟩
    rw [houtput, ← hname]
    exact mem_typeNames hu (List.mem_append_left _ (nodeName_mem_derivedNames (hcategory.symm ▸ hnode)))

/-! ## Names that are mentioned -/

theorem isLeaf_eq {x : Handle} (hx : x.ReachedFrom g (schemaRoots g)) :
    s.isLeaf x.name = true ↔ x.category = .scalar ∨ x.category = .enum := by
  obtain ⟨d, hd, _⟩ := hs.exists_define h hx
  have hcategory := category_of_define_handle hd
  rw [Schema.isLeaf, hs.find? x hx d hd, Option.any_some, NamedType.map, ← hcategory, Category.of]
  cases d.body <;> simp [TypeBody.map, TypeBody.isLeaf]

/-- The name under which the type of a field is mentioned is declared, however the type is written. -/
theorem shapeName_mem_typeNames {e : TypeExpr Handle} (hx : e.base.ReachedFrom g (schemaRoots g))
    (hshown : Shown e.base) (houtput : e.base.category ≠ .inputObject) (style : TypeStyle) :
    shapeName s style (e.map Handle.name) ∈ typeNames s := by
  have hnames := names_mem_typeNames h hs hx hshown
  unfold shapeName
  dsimp only
  rw [TypeExpr.base_map]
  -- A name is that of a node only where the type has parts, and then it is an object or an interface.
  split
  · rename_i hcondition
    have hleaf : ¬s.isLeaf e.base.name = true := by
      simp only [Bool.and_eq_true, Bool.not_eq_true'] at hcondition
      exact Bool.eq_false_iff.mp hcondition.2
    rw [isLeaf_eq h hs hx] at hleaf
    refine hnames.node ?_
    cases hcategory : e.base.category with
    | object => exact Or.inl rfl
    | interface => exact Or.inr rfl
    | scalar => exact absurd (Or.inl hcategory) hleaf
    | enum => exact absurd (Or.inr hcategory) hleaf
    | inputObject => exact absurd hcategory houtput
    | union => exact absurd hcategory (category_ne_union _)
  · exact hnames.output

theorem argumentName_mem_typeNames {e : TypeExpr Handle} (hx : e.base.ReachedFrom g (schemaRoots g))
    (hshown : ArgumentShown e) : shapeName s {} (e.map Handle.name) ∈ typeNames s := by
  obtain ⟨x, rfl | rfl, hx'⟩ := hshown
  · exact (names_mem_typeNames h hs hx hx').output
  · exact (names_mem_typeNames h hs hx hx').output

/-! ## Pieces that are closed -/

variable (hshown : NamesShown g.types)

include hshown

/-- The fields of a type that is made for one that shows mention what is declared. -/
theorem closed_fields {x : Handle} (hx : x.ReachedFrom g (schemaRoots g)) (hsubject : SubjectShown x)
    {d : NamedType Handle} (hd : define g (fresh g) x = .ok d) :
    ∀ entry ∈ (d.map Handle.name).body.outputFields,
      (∀ style, Closed s (.mention (shapeName s style entry.2.type))) ∧
        ∀ argument ∈ entry.2.args, Closed s (.mention (shapeName s {} argument.2.type)) := by
  intro entry hentry
  rw [NamedType.map, outputFields_map] at hentry
  obtain ⟨field, hfield, rfl⟩ := List.mem_map.mp hentry
  have hparts := fieldShown_of_define h hshown hsubject hd field hfield
  have hreached : ∀ y ∈ field.2.refs, y.ReachedFrom g (schemaRoots g) := fun y hy =>
    .ref hx hd (mem_refs_of_outputFields hfield hy)
  refine ⟨fun style => closed_mention ?_, fun argument hargument => closed_mention ?_⟩
  · exact shapeName_mem_typeNames h hs (hreached _ List.mem_cons_self) hparts.type.shown hparts.type.category style
  · obtain ⟨made, hmade, rfl⟩ := List.mem_map.mp hargument
    refine argumentName_mem_typeNames h hs (hreached _ ?_) (hparts.args made hmade)
    exact List.mem_cons_of_mem _ (List.mem_map.mpr ⟨made, hmade, rfl⟩)

omit hs hshown in
/-- What an object extends is declared. -/
theorem closed_interfaces {d : NamedType Handle} {x : Handle} (hd : define g (fresh g) x = .ok d) :
    ∀ interfaces fields, (d.map Handle.name).body = .object interfaces fields →
      ∀ n ∈ interfaces, Closed s (.mention n) := by
  intro interfaces fields hbody n hn
  rw [NamedType.map] at hbody
  cases hb : d.body with
  | object implemented made =>
    rw [hb] at hbody
    obtain ⟨rfl, _⟩ := TypeBody.object.inj hbody
    obtain ⟨y, hy, rfl⟩ := List.mem_map.mp hn
    rw [interfaces_of_define h hd hb y hy]
    exact closed_mention List.mem_cons_self
  | _ =>
    rw [hb] at hbody
    cases hbody

/-- A node and a promise of it mention what is declared, the promise also its node. -/
theorem closed_shapePieces {x : Handle} (hx : x.ReachedFrom g (schemaRoots g)) (hsubject : SubjectShown x)
    {d : NamedType Handle} (hd : define g (fresh g) x = .ok d) {isNode : Bool}
    (hnode : isNode = false → nodeName (d.map Handle.name).name ∈ typeNames s) :
    ∀ p ∈ shapePieces s isNode (d.map Handle.name), Closed s p := by
  have hfields := closed_fields h hs hshown hx hsubject hd
  refine forall_mem_shapePieces (closed_text s) (closed_of_eq_none rfl)
    (fun hpromise => closed_mention (hnode hpromise)) (closed_interfaces h hd) fun entry hentry => ?_
  exact ⟨(hfields entry hentry).1 _, (hfields entry hentry).2⟩

/-- The fields of an input that shows mention what is declared. -/
theorem closed_inputFields {x : Handle} (hx : x.ReachedFrom g (schemaRoots g)) (hsubject : SubjectShown x)
    {d : NamedType Handle} (hd : define g (fresh g) x = .ok d) {fields : FieldMap (InputField Handle)}
    {isOneOf : Bool} (hbody : d.body = .inputObject fields isOneOf) :
    ∀ entry ∈ fields, Closed s (.mention (inputName (entry.2.type.map Handle.name).base)) := by
  intro entry hentry
  have href : entry.2.type.base.ReachedFrom g (schemaRoots g) := by
    refine .ref hx hd ?_
    rw [hbody]
    exact List.mem_map.mpr ⟨entry, hentry, rfl⟩
  cases x with
  | made r =>
    have hk : r.kind.isInput = true := isInput_of_define hd (by rw [hbody]; rfl)
    obtain ⟨t, ht, hname, fields', d', hd', _, hbody', hparts⟩ := exists_parts h hs hx hk
    obtain rfl := Except.ok.inj (hd.symm.trans hd')
    obtain ⟨rfl, _⟩ := TypeBody.inputObject.inj (hbody.symm.trans hbody')
    have hshow := shown_of_mentions hshown ht (hname ▸ hsubject) (hparts.part entry hentry).mentions
    rw [TypeExpr.base_map]
    exact closed_mention (names_mem_typeNames h hs href hshow).input
  | scalar =>
    cases hd
    cases hbody
  | absent =>
    cases hd
    cases hbody

theorem closed_inputPieces {x : Handle} (hx : x.ReachedFrom g (schemaRoots g)) (hsubject : SubjectShown x)
    {d : NamedType Handle} (hd : define g (fresh g) x = .ok d) {fields : FieldMap (InputField String)}
    {isOneOf : Bool} (hbody : (d.map Handle.name).body = .inputObject fields isOneOf) :
    ∀ p ∈ inputPieces (d.map Handle.name) fields, Closed s p := by
  refine forall_mem_inputPieces (closed_text s) (closed_of_eq_none rfl) fun entry hentry => ?_
  cases hmade : d.body with
  | inputObject made isOneOf' =>
    rw [NamedType.map, hmade] at hbody
    obtain ⟨rfl, _⟩ := TypeBody.inputObject.inj hbody
    obtain ⟨field, hfield, rfl⟩ := List.mem_map.mp hentry
    exact closed_inputFields h hs hshown hx hsubject hd hmade field hfield
  | _ =>
    rw [NamedType.map, hmade] at hbody
    cases hbody

/-- The declaration of a type mentions what is declared. -/
theorem closed_declarePieces (language : Language) {u : NamedType String} (hu : u ∈ declaredTypes s) :
    ∀ p ∈ declarePieces language s u, Closed s p := by
  obtain ⟨hmem, hvisible, _⟩ := mem_declaredTypes.mp hu
  obtain ⟨x, hx, d, hd, rfl⟩ := (hs.types u).mp hmem
  obtain ⟨d', hd', hname, _⟩ := hs.exists_define h hx
  obtain rfl := Except.ok.inj (hd.symm.trans hd')
  have hvalid := valid_of_reachedFrom h valid_schemaRoots hx
  have hsubject := subjectShown_of_name h hshown hvalid (hname ▸ hvisible)
  have hcategory : Category.of (d.map Handle.name) = x.category :=
    (category_map _ _).trans (category_of_define_handle hd)
  cases hbody : (d.map Handle.name).body with
  | scalar =>
    rw [declarePieces, hbody]
    exact closed_scalarPieces s language _
  | enum =>
    rw [declarePieces, hbody]
    refine List.forall_mem_cons.mpr ⟨closed_text s _, List.forall_mem_cons.mpr ⟨closed_of_eq_none rfl, ?_⟩⟩
    exact List.forall_mem_singleton.mpr (closed_text s _)
  | object interfaces fields =>
    rw [declarePieces, hbody]
    have hnode : nodeName (d.map Handle.name).name ∈ typeNames s := by
      refine mem_typeNames hu (List.mem_append_left _ (nodeName_mem_derivedNames (Or.inl ?_)))
      rw [Category.of, hbody]
    refine List.forall_mem_append.mpr ⟨?_, List.forall_mem_cons.mpr ⟨closed_text s _, ?_⟩⟩
    · exact closed_shapePieces h hs hshown hx hsubject hd fun _ => hnode
    · exact closed_shapePieces h hs hshown hx hsubject hd fun _ => hnode
  | interface interfaces fields =>
    rw [declarePieces, hbody]
    exact closed_shapePieces h hs hshown hx hsubject hd (absurd · (by decide))
  | union members =>
    -- No type that is made is a union.
    refine absurd ?_ (category_ne_union x)
    rw [← hcategory, Category.of, hbody]
  | inputObject fields isOneOf =>
    rw [declarePieces, hbody]
    exact closed_inputPieces h hs hshown hx hsubject hd hbody

/-! ## Root types -/

omit hshown in
theorem exists_root {k : Kind} (hk : k = .query ∨ k = .mutation) {root : Option String} (hroot : root = rootName g k)
    {entry : String × OutputField String} (hentry : entry ∈ rootFields s root) :
    Handle.ReachedFrom g (schemaRoots g) (.made (.shared k)) ∧ ∃ d, define g (fresh g) (.made (.shared k)) = .ok d ∧
      entry ∈ (d.map Handle.name).body.outputFields := by
  obtain ⟨d, hd⟩ : ∃ d, define g (fresh g) (.made (.shared k)) = .ok d := by
    rcases hk with rfl | rfl
    · exact ⟨_, hs.define_query h⟩
    · exact ⟨_, hs.define_mutation h⟩
  rw [rootFields, hroot, hs.root?_rootName hk hd] at hentry
  cases hmodels : g.models with
  | nil =>
    rw [hmodels] at hentry
    cases hentry
  | cons t rest =>
    have ht : t ∈ g.models := hmodels ▸ List.mem_cons_self
    rw [hmodels] at hentry
    exact ⟨.root (root_mem_schemaRoots hk ht), d, hd, hentry⟩

theorem closed_rootPieces {k : Kind} (hk : k = .query ∨ k = .mutation) {root : Option String}
    (hroot : root = rootName g k) (style : MethodStyle) : ∀ p ∈ rootPieces s root style, Closed s p := by
  have hsubject : SubjectShown (.made (.shared k)) := (by decide : isHiddenName "" = false)
  refine forall_mem_rootPieces (closed_text s) (fun entry hentry => ?_) style
  obtain ⟨hreached, d, hd, hmem⟩ := exists_root h hs hk hroot hentry
  obtain ⟨htype, hargs⟩ := closed_fields h hs hshown hreached hsubject hd entry hmem
  exact ⟨htype _, hargs⟩

/-- The check whether there are items mentions what is declared. -/
theorem closed_exists : ∀ pair ∈ filteredTypes (rootFields s s.query),
    Closed s (.mention pair.1) ∧ Closed s (.mention pair.2) := by
  rw [filteredTypes_rootFields h hs, List.forall_mem_map]
  intro t ht
  obtain ⟨hmem, hmodel⟩ := List.mem_filter.mp ht
  have hname := hshown.models t hmem hmodel
  have hobject := Assembled.reached_object hmem (ModelType.isEnum_of_isModel hmodel)
  have hitem := names_mem_typeNames h hs hobject ⟨rfl, hname⟩
  have hwhere := names_mem_typeNames h hs (reached_whereInput h hs.free ht) ⟨rfl, hname⟩
  have hscalar : Kind.object.category ≠ .scalar ∧ Kind.whereInput.category ≠ .scalar := by decide
  exact ⟨closed_mention (hitem.plain hscalar.1), closed_mention (hwhere.plain hscalar.2)⟩

/-- Where all names show, all that is mentioned is declared. -/
theorem closed_sourcePieces (language : Language) (types : List ModelType) (options : ClientOptions) :
    ∀ p ∈ sourcePieces language s types options, Closed s p :=
  forall_mem_sourcePieces (closed_text s) (fun _ => closed_of_eq_none rfl) (closed_exists h hs hshown)
    (closed_rootPieces h hs hshown (Or.inl rfl) hs.query)
    (closed_rootPieces h hs hshown (Or.inr rfl) hs.mutation)
    fun _ hu => closed_declarePieces h hs hshown language hu

end Generated

/-! ## Names that are hidden -/

theorem outputName_ne_empty {name : String} (hname : name ≠ "") : outputName name ≠ "" := by
  unfold outputName
  split
  · decide
  · exact hname

theorem isHiddenName_outputName (name : String) : isHiddenName (outputName name) = isHiddenName name := by
  unfold outputName
  split
  · rename_i hid
    rw [hid]
    decide
  · rfl

section Mentions

variable {s : Schema} {style : TypeStyle} {e : TypeExpr String} (he : e.base ≠ "")

include he

theorem shapeName_ne_empty : shapeName s style e ≠ "" := by
  have hname := outputName_ne_empty he
  unfold shapeName
  dsimp only
  split
  · exact fun hempty => hname (String.append_eq_empty_iff.mp hempty).1
  · exact hname

/-- However a type is written, it is mentioned under a hidden name where its name is hidden. -/
theorem isHiddenName_shapeName : isHiddenName (shapeName s style e) = isHiddenName e.base := by
  have hname := isHiddenName_outputName e.base
  unfold shapeName
  dsimp only
  split
  · exact (isHiddenName_nodeName (outputName_ne_empty he)).trans hname
  · exact hname

end Mentions

section Fields

variable {g : TypeGraph} (h : WellFormed g.types) {t : ModelType} (ht : t ∈ g.types)

include h ht

theorem typeName_ne_empty {f : ModelField} (hf : f ∈ t.fields) : f.typeName ≠ "" := by
  rcases target_of_mem h ht hf with ⟨scalar, hname, _⟩ | ⟨u, hu, hname, _⟩ | ⟨u, hu, hname, _⟩
  · rw [hname]
    cases scalar <;> decide
  · exact hname ▸ name_ne_empty_of_mem h hu
  · exact hname ▸ name_ne_empty_of_mem h hu

/-- The fields of an object refer to the types that the fields of the datamodel refer to. -/
theorem bases_of_objectFields (hfree : ∀ t ∈ g.types, t.name ∉ introspectionNames)
    {fields : FieldMap (OutputField Handle)} (hfields : objectFields g (fresh g) t = .ok fields) :
    fields.map (·.2.type.base.name) = t.fields.map (·.typeName) := by
  refine map_of_mapM_eq_ok ((objectFields_eq_ok_iff h ht).mp hfields) fun f hf entry hentry => ?_
  have hleaf : isLeafOf g f = true → entry.2.type.base.name = f.typeName := by
    intro hleaf
    obtain ⟨x, hname, hmade⟩ := objectField_leaf h hfree ht hf hleaf
    obtain rfl := Except.ok.inj (hentry.symm.trans hmade)
    rw [base_requiredIf, ← hname]
    split <;> rfl
  rcases target_of_mem h ht hf with ⟨_, _, htarget⟩ | ⟨_, _, _, _, htarget⟩ | ⟨u, hu, hname, _, _, htarget⟩
  · exact hleaf (by rw [isLeafOf, htarget]; rfl)
  · exact hleaf (by rw [isLeafOf, htarget]; rfl)
  · obtain rfl := Except.ok.inj (hentry.symm.trans (objectField_relation h hfree hu htarget))
    rw [base_withModifiers, hname]
    rfl

end Fields

section Hidden

variable {g : TypeGraph} (h : WellFormed g.types) {s : Schema} (hs : Assembled g s) {language : Language}
  {types : List ModelType} {options : ClientOptions}
  (hclosed : ∀ p ∈ sourcePieces language s types options, Closed s p)

include h hs hclosed

/-- What is mentioned in a client that declares all that it mentions is not hidden. -/
theorem not_hidden_of_mention {style : TypeStyle} {e : TypeExpr String} (he : e.base ≠ "")
    (hmention : .mention (shapeName s style e) ∈ sourcePieces language s types options) :
    isHiddenName e.base = false := by
  rw [← isHiddenName_shapeName he]
  exact isHiddenName_typeNames h hs (hclosed _ hmention _ rfl)

/-- The mutation that deletes many items mentions the filter of the model. -/
theorem not_hidden_of_model {t : ModelType} (ht : t ∈ g.models) : isHiddenName t.name = false := by
  have hmem := (List.mem_filter.mp ht).1
  have hfilter : (TypeExpr.named (t.name ++ "WhereInput")).base ≠ "" := fun hempty =>
    name_ne_empty_of_mem h hmem (String.append_eq_empty_iff.mp hempty).1
  have hentry : byName ("deleteMany" ++ Naming.upperFirst (Naming.pluralName t.name),
      { type := .nonNull (.named (.made (.shared .batchPayload))), args := [filterOf t] }) ∈
        rootFields s s.mutation := by
    rw [rootFields_mutation h hs]
    refine List.mem_map_of_mem (List.mem_flatMap.mpr ⟨t, ht, ?_⟩)
    exact List.mem_append_right _ (List.mem_singleton_self _)
  rw [← isHiddenName_ending h hmem (by decide : "WhereInput" ∈ generatedSuffixes)]
  have hmention := mention_mem_rootPieces hentry rfl mutationStyle
  exact not_hidden_of_mention h hs hclosed hfilter
    (mem_sourcePieces_of_mutation (shapeName_ne_empty hfilter) hmention)

/-- The promise of an item mentions the types of its fields. -/
theorem not_hidden_of_field {t : ModelType} (ht : t ∈ g.types) (hvisible : isHiddenName t.name = false)
    {f : ModelField} (hf : f ∈ t.fields) : isHiddenName f.typeName = false := by
  have henum : t.isEnum = false := by
    cases henum : t.isEnum with
    | false => rfl
    | true =>
      rw [(h.type t ht).fields_eq_nil henum] at hf
      cases hf
  have hreached := Assembled.reached_object ht henum
  obtain ⟨d, hd, _⟩ := hs.exists_define h hreached
  obtain ⟨interfaces, fields, hfields, rfl⟩ := exists_of_define_object h ht hd
  have hdeclared := mem_declaredTypes_of_define h hs hreached hvisible (name_not_mem_roots h ht) hd
  have hbase : f.typeName ∈ fields.map (·.2.type.base.name) := by
    rw [bases_of_objectFields h ht hs.free hfields]
    exact List.mem_map_of_mem hf
  obtain ⟨entry, hentry, hname⟩ := List.mem_map.mp hbase
  have hmade : (entry.2.type.map Handle.name).base = f.typeName := (TypeExpr.base_map _ _).trans hname
  have hmember : byName entry ∈ fields.map byName := List.mem_map_of_mem hentry
  have hmention : .mention (shapeName s { isNode := false, isFunction := true } (byName entry).2.type) ∈
      sourcePieces language s types options :=
    mem_sourcePieces_of_declared hdeclared (mention_mem_declarePieces rfl hmember)
  rw [← hmade]
  exact not_hidden_of_mention h hs hclosed (hmade ▸ typeName_ne_empty h ht hf) hmention

end Hidden

/-! ## Main result -/

theorem closed_iff {language : Language} {s : Schema} {types : List ModelType} {options : ClientOptions} :
    (∀ n ∈ mentionedNames language s types options, n ∈ typeNames s) ↔
      ∀ p ∈ sourcePieces language s types options, Closed s p :=
  ⟨fun hmentioned p hp n hn => hmentioned n (List.mem_filterMap.mpr ⟨p, hp, hn⟩), fun hclosed n hn => by
    obtain ⟨p, hp, hn⟩ := List.mem_filterMap.mp hn
    exact hclosed p hp n hn⟩

/--
What a client for a datamodel with a schema mentions.

The text consists of pieces, and the names of the types in it are exported by some of them. Others mention names of
types. Each name that is mentioned is a name of a type in the text exactly where no name that the client comes
across is hidden: that of a model, or one to which a field of a type that shows refers.
-/
theorem closedNames_iff {database : Database} {source : List Char} {types : List ModelType}
    (h : parse database source = .ok types) {s : Schema} (hs : schema (.ofTypes types) = .ok s)
    (language : Language) (options : ClientOptions) :
    renderPieces (sourcePieces language s types options) = Client.source language s types options ∧
      (∀ n ∈ typeNames s, n ∈ exportedNames language s types options) ∧
      ((∀ n ∈ mentionedNames language s types options, n ∈ typeNames s) ↔ NamesShown types) := by
  have hwf := (wellFormed_of_parse h).ofTypes
  have htypes := TypeGraph.types_ofTypes (wellFormed_of_parse h).nodup_names
  rw [schema_eq_assemble] at hs
  have hassembled := assembled_of_eq_ok hwf hs
  refine ⟨renderPieces_sourcePieces language s types options, fun n hn => ?_, ?_⟩
  · rw [exportedNames_eq]
    rcases List.mem_cons.mp hn with rfl | hn
    · delta skeletonNames
      simp
    · exact List.mem_append_right _ hn
  · rw [closed_iff]
    constructor
    · intro hclosed
      refine htypes ▸ ⟨fun t ht hmodel => ?_, fun t ht hvisible f hf => ?_⟩
      · exact not_hidden_of_model hwf hassembled hclosed (List.mem_filter.mpr ⟨ht, hmodel⟩)
      · exact not_hidden_of_field hwf hassembled hclosed ht hvisible hf
    · intro hshown
      exact closed_sourcePieces hwf hassembled (htypes.symm ▸ hshown) language types options

/-- Two models, one of which has a list of the other. -/
def authorSource : List Char :=
  "type Author { id: ID! @id books: [Book] } type Book { id: ID! @id title: String! }".toList

theorem closedNames_author : ∃ types s, parse .relational authorSource = .ok types ∧
    schema (.ofTypes types) = .ok s ∧
    renderPieces (sourcePieces .flow s types {}) = Client.source .flow s types {} ∧
    (∀ n ∈ typeNames s, n ∈ exportedNames .flow s types {}) ∧
    ((∀ n ∈ mentionedNames .flow s types {}, n ∈ typeNames s) ↔ NamesShown types) := by
  obtain ⟨types, s, h, hs⟩ : ∃ types s, parse .relational authorSource = .ok types ∧
      schema (.ofTypes types) = .ok s :=
    exists_schema_of_isOk (by decide +kernel)
  exact ⟨types, s, h, hs, closedNames_iff h hs .flow {}⟩

/-- A model with an embedded type that has a hidden name. -/
def hiddenSource : List Char :=
  "type Post { id: ID! @id meta: __Meta } type __Meta @embedded { words: Int }".toList

/-- The promise of an item mentions a type that is left out as hidden. -/
theorem embedded_type_mentioned_not_exported : ∃ types s, parse .document hiddenSource = .ok types ∧
    schema (.ofTypes types) = .ok s ∧
    ∀ language options, "__Meta" ∈ mentionedNames language s types options ∧
      "__Meta" ∉ exportedNames language s types options := by
  obtain ⟨types, s, h, hs, ⟨u, hu, hobject, entry, hentry, hname⟩, hexport⟩ : ∃ types s,
      parse .document hiddenSource = .ok types ∧ schema (.ofTypes types) = .ok s ∧
      (∃ u ∈ declaredTypes s, Category.of u = .object ∧ ∃ entry ∈ u.body.outputFields,
        shapeName s { isNode := false, isFunction := true } entry.2.type = "__Meta") ∧
      "__Meta" ∉ skeletonNames s ++ (declaredTypes s).flatMap ownNames :=
    exists_schema_of_any (by decide +kernel)
  refine ⟨types, s, h, hs, fun language options => ⟨?_, exportedNames_eq language s types options ▸ hexport⟩⟩
  have hmention : .mention "__Meta" ∈ sourcePieces language s types options :=
    hname ▸ mem_sourcePieces_of_declared hu (mention_mem_declarePieces hobject hentry)
  exact List.mem_filterMap.mpr ⟨_, hmention, rfl⟩

end OpenCrud.Client
