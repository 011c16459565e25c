import OpenCrud.Proofs.Client.ClosedNames
import OpenCrud.Proofs.Generate.NodeInterface
import OpenCrud.Schema.OfDocument

/-!
# The node shapes of objects

A node is what an item comes as in a list: it should have scalars and enums only, and what can be null may be missing
from it. What is left out of a node are the fields with objects, though, so that it shows those with interfaces and
unions as well. Main result: a node is as promised exactly where every field has a scalar, an enum or an object
(`render_node_iff`). So are all nodes that a client of a datamodel declares (`render_node_of_parse`): only the query
type has a field with an interface.
-/

namespace OpenCrud.Client

open Datamodel Generate

/-! ## Lines -/

/-- The number of characters of some lines with a line feed behind each. -/
def linesLength : List String → Nat
  | [] => 0
  | line :: lines => line.length + 1 + linesLength lines

/-- Lines are put together with one line feed less than there are lines. -/
theorem length_intercalate_lines (lines : List String) :
    ("\n".intercalate lines).length = linesLength lines - 1 := by
  induction lines with
  | nil => rfl
  | cons line lines ih =>
    cases lines with
    | nil => simp [linesLength]
    | cons next rest =>
      have hfeed : "\n".length = 1 := rfl
      rw [String.intercalate_cons_cons, String.length_append, String.length_append, ih, hfeed]
      simp only [linesLength]
      omega

/-- Lines that are left out are missed, unless they are empty. -/
theorem linesLength_add_two_le {lines shown : List String} (h : shown.Sublist lines) (hne : shown ≠ lines)
    (hlines : ∀ line ∈ lines, line ≠ "") : linesLength shown + 2 ≤ linesLength lines := by
  induction h with
  | slnil => exact absurd rfl hne
  | @cons shown lines line h ih =>
    obtain ⟨hline, hlines⟩ := List.forall_mem_cons.mp hlines
    have hpos : line.length ≠ 0 := fun hc => hline (String.length_eq_zero_iff.mp hc)
    rw [linesLength]
    by_cases hsame : shown = lines
    · rw [hsame]
      omega
    · have hrest := ih hsame hlines
      omega
  | @cons_cons shown lines line h ih =>
    have hrest := ih (fun hc => hne (by rw [hc])) (List.forall_mem_cons.mp hlines).2
    rw [linesLength, linesLength]
    omega

/-- Some of the lines make the same text only where they are all of them. -/
theorem eq_of_sublist_of_intercalate {lines shown : List String} (h : shown.Sublist lines)
    (hlines : ∀ line ∈ lines, line ≠ "") (heq : "\n".intercalate lines = "\n".intercalate shown) :
    shown = lines := by
  by_contra hne
  have hlength := congrArg String.length heq
  have hless := linesLength_add_two_le h hne hlines
  rw [length_intercalate_lines, length_intercalate_lines] at hlength
  omega

/-! ## Nodes -/

/-- The member that a node is to have for a field: the value itself, which may be missing where it can be null. -/
def promisedMember (entry : String × OutputField String) : Member where
  name := entry.1
  isOptional := !entry.2.type.isNonNull
  type := outputName entry.2.type.base ++ if isListed entry.2.type then "[]" else ""

/-- The fields that a node is to show. -/
def promisedFields (s : Schema) (t : NamedType String) : FieldMap (OutputField String) :=
  t.body.outputFields.filter fun entry => s.isLeaf entry.2.type.base

/-- The line that a node is to have for a field: a mark says that the value may be missing, and an identifier has the
type it comes out as. -/
def promisedLine (entry : String × OutputField String) : String :=
  "  " ++ entry.1 ++ (if entry.2.type.isNonNull then "" else "?") ++ ": " ++
    (if entry.2.type.base = "ID" then "ID_Output" else entry.2.type.base) ++
    (if isListed entry.2.type then "[]" else "") ++ ","

/-- What a node begins with: its description, its name and the interfaces of its type. -/
def nodeHead (t : NamedType String) : String :=
  describe t.description ++ "export interface " ++ t.name ++ "Node" ++
    (if (listedInterfaces t).isEmpty then "" else " extends " ++ ", ".intercalate (listedInterfaces t)) ++ " \x7b\n"

/-- The node of a type as it is promised: with a line for each scalar and each enum, in their order. -/
def promisedNode (s : Schema) (t : NamedType String) : String :=
  nodeHead t ++ "\n".intercalate ((promisedFields s t).map promisedLine) ++ "\n\x7d"

section Nodes

variable {s : Schema} {t : NamedType String}

theorem isObject_eq_false_of_isLeaf {name : String} (h : s.isLeaf name = true) : s.isObject name = false := by
  rw [Schema.isLeaf] at h
  rw [Schema.isObject]
  cases hfind : s.find? name with
  | none => rfl
  | some u =>
    rw [hfind, Option.any_some] at h
    rw [Option.any_some]
    cases hbody : u.body with
    | object =>
      rw [hbody] at h
      cases h
    | _ => rfl

/-- A member of a node as it is promised is the promised line. -/
theorem render_promisedMember (entry : String × OutputField String) :
    (promisedMember entry).render = promisedLine entry := by
  have hmark : optionalMark (!entry.2.type.isNonNull) = if entry.2.type.isNonNull then "" else "?" := by
    cases entry.2.type.isNonNull <;> rfl
  have hname : outputName entry.2.type.base =
      if entry.2.type.base = "ID" then "ID_Output" else entry.2.type.base := rfl
  simp only [Member.render, Member.label, promisedMember, promisedLine, hmark, hname, String.append_assoc]

/-- A field with scalars or enums is shown as promised. -/
theorem memberOf_of_isLeaf {entry : String × OutputField String} (h : s.isLeaf entry.2.type.base = true) :
    memberOf s true entry = promisedMember entry := by
  have hname : shapeName s { isNode := true, isFunction := true } entry.2.type = outputName entry.2.type.base := by
    rw [shapeName, h, Bool.not_true, Bool.and_false]
    rfl
  have htype : outputFieldType s { isNode := true, isFunction := true } false entry.1 entry.2 =
      outputName entry.2.type.base ++ if isListed entry.2.type then "[]" else "" := by
    rw [outputFieldType, fieldType, if_pos h, hname]
    cases isListed entry.2.type with
    | true => rfl
    | false => exact String.append_empty.symm
  rw [memberOf, htype]
  rfl

theorem map_render_promisedFields : ((promisedFields s t).map (memberOf s true)).map Member.render =
    (promisedFields s t).map promisedLine := by
  rw [List.map_map]
  refine List.map_congr_left fun entry hentry => ?_
  rw [Function.comp_apply, memberOf_of_isLeaf (List.mem_filter.mp hentry).2, render_promisedMember]

theorem promisedFields_sublist : (promisedFields s t).Sublist (shownFields s true t.body.outputFields) := by
  have hsame : promisedFields s t =
      (shownFields s true t.body.outputFields).filter fun entry => s.isLeaf entry.2.type.base := by
    rw [promisedFields, shownFields, List.filter_filter]
    refine List.filter_congr fun entry _ => ?_
    cases hleaf : s.isLeaf entry.2.type.base with
    | false => rfl
    | true => rw [isObject_eq_false_of_isLeaf hleaf]; rfl
  rw [hsame]
  exact List.filter_sublist

/-- A node shows nothing but what is promised where each of its fields has a scalar, an enum or an object. -/
theorem promisedFields_eq_shownFields_iff : promisedFields s t = shownFields s true t.body.outputFields ↔
    ∀ entry ∈ t.body.outputFields, s.isLeaf entry.2.type.base = true ∨ s.isObject entry.2.type.base = true := by
  constructor
  · intro hsame entry hentry
    cases hobject : s.isObject entry.2.type.base with
    | true => exact .inr rfl
    | false =>
      have hshown : entry ∈ shownFields s true t.body.outputFields :=
        List.mem_filter.mpr ⟨hentry, by rw [hobject]; rfl⟩
      rw [← hsame] at hshown
      exact .inl (List.mem_filter.mp hshown).2
  · intro hfields
    refine List.filter_congr fun entry hentry => ?_
    rcases hfields entry hentry with hleaf | hobject
    · rw [hleaf, isObject_eq_false_of_isLeaf hleaf]
      rfl
    · cases hleaf : s.isLeaf entry.2.type.base with
      | false => rw [hobject]; rfl
      | true => exact absurd ((isObject_eq_false_of_isLeaf hleaf).symm.trans hobject) Bool.false_ne_true

theorem render_member_ne_empty (m : Member) : m.render ≠ "" := by
  intro hc
  have hlist := congrArg String.toList hc
  simp [Member.render] at hlist

/-- What is around the members of a node is as promised. -/
theorem render_interfaceOf_true (s : Schema) (t : NamedType String) : (interfaceOf s true t).render =
    nodeHead t ++ "\n".intercalate
      (((shownFields s true t.body.outputFields).map (memberOf s true)).map Member.render) ++ "\n\x7d" := by
  have hname : (interfaceOf s true t).name = t.name ++ "Node" := rfl
  have hdescription : (interfaceOf s true t).description = t.description := rfl
  have hmembers : (interfaceOf s true t).members =
      (shownFields s true t.body.outputFields).map (memberOf s true) := rfl
  have hparents : (interfaceOf s true t).parents = listedInterfaces t := by
    obtain ⟨name, description, body⟩ := t
    cases body <;> rfl
  simp only [InterfaceDecl.render, nodeHead, hname, hdescription, hmembers, hparents, String.append_assoc]

/-- A node is as promised where it shows the fields that are promised. -/
theorem render_interfaceOf_eq_iff : (interfaceOf s true t).render = promisedNode s t ↔
    promisedFields s t = shownFields s true t.body.outputFields := by
  rw [render_interfaceOf_true, promisedNode, ← map_render_promisedFields]
  constructor
  · intro heq
    have hlines := eq_of_sublist_of_intercalate ((promisedFields_sublist.map _).map _)
      (List.forall_mem_map.mpr fun m _ => render_member_ne_empty m)
      ((String.append_right_inj _).mp ((String.append_left_inj _).mp heq))
    refine promisedFields_sublist.eq_of_length ?_
    have hlength := congrArg List.length hlines
    simpa only [List.length_map] using hlength
  · intro hsame
    rw [hsame]

end Nodes

/-! ## Main result -/

/-- A node has its members in order, with a mark on what can be null, and a field with scalars or enums as promised. It
is as promised itself exactly where every field has a scalar, an enum or an object. -/
theorem render_node_iff (s : Schema) (t : NamedType String) :
    ((interfaceOf s true t).render = promisedNode s t ↔
      ∀ entry ∈ t.body.outputFields, s.isLeaf entry.2.type.base = true ∨ s.isObject entry.2.type.base = true) ∧
    (∀ entry ∈ t.body.outputFields, s.isLeaf entry.2.type.base = true →
      memberOf s true entry = promisedMember entry ∧ (memberOf s true entry).render = promisedLine entry) ∧
    (interfaceOf s true t).members.map (fun m => (m.name, m.isOptional)) =
      (t.body.outputFields.filter fun entry => !s.isObject entry.2.type.base).map
        fun entry => (entry.1, !entry.2.type.isNonNull) := by
  refine ⟨render_interfaceOf_eq_iff.trans promisedFields_eq_shownFields_iff, fun entry _ hleaf => ?_, ?_⟩
  · rw [memberOf_of_isLeaf hleaf]
    exact ⟨rfl, render_promisedMember entry⟩
  show ((shownFields s true t.body.outputFields).map (memberOf s true)).map _ = _
  rw [List.map_map]
  rfl

/-- A document with an object that has a field with an interface. -/
def interfaceSource : List Char :=
  "interface I \x7b a: Int \x7d type X \x7b a: Int i: I \x7d type Query \x7b x: X \x7d".toList

/-- A field with an interface is shown in a node. -/
theorem interface_shown_in_node : ∃ document s t, Sdl.Document.parse interfaceSource = .ok document ∧
    Schema.ofDocument document = .ok s ∧ s.find? "X" = some t ∧ t.body.isObject = true ∧
    (interfaceOf s true t).render =
      "export interface XNode \x7b\n  a?: Int,\n  i?: Promise<INode | null>,\n\x7d" ∧
    promisedNode s t = "export interface XNode \x7b\n  a?: Int,\n\x7d" := by
  obtain ⟨document, hparse, hany⟩ := exists_ok_of_any
    (p := fun document => (Schema.ofDocument document).toOption.any fun s => (s.find? "X").any fun t =>
      decide (t.body.isObject = true ∧ (interfaceOf s true t).render =
          "export interface XNode \x7b\n  a?: Int,\n  i?: Promise<INode | null>,\n\x7d" ∧
        promisedNode s t = "export interface XNode \x7b\n  a?: Int,\n\x7d"))
    (show (Sdl.Document.parse interfaceSource).toOption.any _ = true by decide +kernel)
  obtain ⟨s, hs, hp⟩ := exists_ok_of_any hany
  obtain ⟨t, ht, hp⟩ := (Option.any_eq_true _ _).mp hp
  exact ⟨document, s, t, hparse, hs, ht, of_decide_eq_true hp⟩

/-! ## Schemas of datamodels -/

/-- Nothing but a root type has a field that is no scalar, enum or object. -/
theorem category_of_outputTarget {g : TypeGraph} {r : Request} (hr : r.kind.isRoot = false) {x : Handle}
    (hx : OutputTarget g r x) : x.category = .scalar ∨ x.category = .enum ∨ x.category = .object := by
  have hkind : ∀ k : Kind, k.isPart = true → k.category ≠ .inputObject →
      k.category = .scalar ∨ k.category = .enum ∨ k.category = .object := by
    intro k
    cases k <;> decide
  cases hx.refers with
  | leaf hleaf =>
    cases x with
    | made r' => exact absurd rfl (hleaf r')
    | _ => exact .inl rfl
  | node =>
    have hroot := hx.item rfl
    rw [hr] at hroot
    cases hroot
  | made hpart => exact hkind _ hpart hx.category

theorem isLeaf_or_isObject_of_category {s : Schema} {name : String} {u : NamedType String} (hu : s.find? name = some u)
    (hcategory : Category.of u = .scalar ∨ Category.of u = .enum ∨ Category.of u = .object) :
    s.isLeaf name = true ∨ s.isObject name = true := by
  rw [Schema.isLeaf, Schema.isObject, hu, Option.any_some, Option.any_some]
  unfold Category.of at hcategory
  cases hbody : u.body with
  | scalar | enum => exact .inl rfl
  | object => exact .inr rfl
  | _ =>
    rw [hbody] at hcategory
    rcases hcategory with hcategory | hcategory | hcategory <;> cases hcategory

section Generated

variable {g : TypeGraph} (h : WellFormed g.types)

include h

/-- There are root types only where there are models. -/
theorem isEmpty_models_of_isRoot {r : Request} (hx : Handle.ReachedFrom g (schemaRoots g) (.made r))
    (hr : r.kind.isRoot = true) : g.models.isEmpty = false := by
  cases hx with
  | root hx =>
    rcases List.mem_append.mp hx with hx | hx
    · obtain ⟨t, _, ht⟩ := List.mem_map.mp hx
      unfold ownType at ht
      cases ht
      split at hr <;> cases hr
    · cases hempty : g.models.isEmpty with
      | false => rfl
      | true =>
        rw [rootTypes, hempty] at hx
        simp at hx
  | @ref x _ d _ hd hy =>
    cases x with
    | made r' =>
      rw [(refers_of_define h hd _ hy).isRoot_eq_false] at hr
      cases hr
    | _ =>
      cases hd
      cases hy

variable {s : Schema} (hs : Assembled g s)

include hs

/-- No root type is declared. -/
theorem isRoot_eq_false_of_declared {r : Request} (hx : Handle.ReachedFrom g (schemaRoots g) (.made r))
    (hdeclared : r.typeName ∉ s.roots.map Prod.snd) : r.kind.isRoot = false := by
  have hname : ∀ r : Request, r.kind.isRoot = true → r.typeName ∈ ["Query", "Mutation"] := by
    rintro ⟨kind, subject, args⟩ hkind
    cases kind
    case query => exact List.mem_cons_self
    case mutation => exact List.mem_cons_of_mem _ List.mem_cons_self
    all_goals cases hkind
  cases hroot : r.kind.isRoot with
  | false => rfl
  | true =>
    have hroots : s.roots.map Prod.snd = ["Query", "Mutation"] := by
      rw [Schema.roots, hs.query, hs.mutation, hs.subscription, rootName, rootName,
        isEmpty_models_of_isRoot h hx hroot]
      rfl
    exact absurd (hroots ▸ hname r hroot) hdeclared

/-- Every field of a type that is declared has a scalar, an enum or an object. -/
theorem isLeaf_or_isObject_of_mem {u : NamedType String} (hu : u ∈ declaredTypes s) :
    ∀ entry ∈ u.body.outputFields, s.isLeaf entry.2.type.base = true ∨ s.isObject entry.2.type.base = true := by
  obtain ⟨hmem, _, hroot⟩ := mem_declaredTypes.mp hu
  obtain ⟨x, hx, d, hd, rfl⟩ := (hs.types u).mp hmem
  intro entry hentry
  rw [NamedType.map, outputFields_map] at hentry
  obtain ⟨field, hfield, rfl⟩ := List.mem_map.mp hentry
  have hreached : field.2.type.base.ReachedFrom g (schemaRoots g) :=
    .ref hx hd (mem_refs_of_outputFields hfield List.mem_cons_self)
  obtain ⟨target, htarget, _⟩ := hs.exists_define h hreached
  have hbase : (byName field).2.type.base = field.2.type.base.name := TypeExpr.base_map _ _
  rw [hbase]
  refine isLeaf_or_isObject_of_category (hs.find? _ hreached target htarget) ?_
  rw [category_map, category_of_define_handle htarget]
  cases x with
  | made r =>
    obtain ⟨d', hd', hname, _⟩ := hs.exists_define h hx
    obtain rfl := Except.ok.inj (hd.symm.trans hd')
    have hdeclared : r.typeName ∉ s.roots.map Prod.snd := fun hc => hroot (hname ▸ hc)
    exact category_of_outputTarget (isRoot_eq_false_of_declared h hs hx hdeclared)
      (gives_outputParts h r _ (outputs_of_define hd).1 field hfield).type
  | scalar =>
    cases hd
    cases hfield
  | absent =>
    cases hd
    cases hfield

end Generated

/-- In a client for a datamodel all nodes are as promised. -/
theorem render_node_of_parse {database : Database} {source : List Char} {types : List ModelType}
    (h : parse database source = .ok types) {s : Schema} (hs : schema (.ofTypes types) = .ok s)
    {u : NamedType String} (hu : u ∈ declaredTypes s) :
    (interfaceOf s true u).render = promisedNode s u := by
  have hwf := (wellFormed_of_parse h).ofTypes
  rw [schema_eq_assemble] at hs
  rw [render_interfaceOf_eq_iff, promisedFields_eq_shownFields_iff]
  exact isLeaf_or_isObject_of_mem hwf (assembled_of_eq_ok hwf hs) hu

end OpenCrud.Client
