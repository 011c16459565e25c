import OpenCrud.Proofs.Client.DeclaredTypes
import OpenCrud.Proofs.Generate.OutputParts

/-!
# Shown types refer to shown types

A client hides types whose names begin with two underscores, also those that a datamodel declares. Where no model
and no field of a type that shows has such a name (`NamesShown`), what a type that shows refers to shows as well.
Main results: `fieldShown_of_define` for objects and interfaces, `shown_of_mentions` for inputs.
-/

namespace OpenCrud.Client

open Datamodel Generate

/-! ## Names that show -/

/-- That no name that a client comes across is hidden: a client has methods for every model, and it declares the
fields of every type that is not hidden. -/
structure NamesShown (types : List ModelType) : Prop where
  models : ∀ t ∈ types, t.isModel = true → isHiddenName t.name = false
  fields : ∀ t ∈ types, isHiddenName t.name = false → ∀ f ∈ t.fields, isHiddenName f.typeName = false

/-- Whether a type is made for a type that shows. -/
def SubjectShown : Handle → Prop
  | .made r => isHiddenName r.subject = false
  | _ => True

/-- Whether a type is one that a client declares: it shows and is no root type. -/
def Shown : Handle → Prop
  | .made r => r.kind.isRoot = false ∧ isHiddenName r.subject = false
  | _ => True

/-- Whether a type is one that a client declares for the results of fields. -/
structure OutputShown (x : Handle) : Prop where
  shown : Shown x
  category : x.category ≠ .inputObject

/-- Whether the type of an argument shows. Arguments are no lists. -/
def ArgumentShown (e : TypeExpr Handle) : Prop :=
  ∃ x, (e = .named x ∨ e = .nonNull (.named x)) ∧ Shown x

/-- Whether all that a field refers to shows. -/
structure FieldShown (field : OutputField Handle) : Prop where
  type : OutputShown field.type.base
  args : ∀ argument ∈ field.args, ArgumentShown argument.2.type

section Names

variable {g : TypeGraph} (h : WellFormed g.types) {x : Handle}

include h

theorem name_ne_empty_of_mem {t : ModelType} (ht : t ∈ g.types) : t.name ≠ "" := by
  intro hempty
  have hname := (h.type t ht).isName_name
  rw [hempty] at hname
  cases hname

/-- A name with an ending is hidden where the name is. -/
theorem isHiddenName_ending {t : ModelType} (ht : t ∈ g.types) {ending : String}
    (hending : ending ∈ generatedSuffixes) : isHiddenName (t.name ++ ending) = isHiddenName t.name := by
  have hletter : ∀ ending ∈ generatedSuffixes, ending.toList.head? ≠ some '_' := by decide
  exact isHiddenName_append (name_ne_empty_of_mem h ht) (hletter _ hending)

theorem isHiddenName_eq_false_of_shown (hx : x.Valid g) (hshown : Shown x) :
    isHiddenName x.name = false ∧ x.name ∉ ["Query", "Mutation"] := by
  have hroots : ∀ n ∈ ["Query", "Mutation"], n ∈ fixedNames := by decide
  cases hx with
  | scalar scalar =>
    cases scalar <;> decide
  | @shared k hk =>
    cases k
    case query | mutation => cases hshown.1
    case node | pageInfo | batchPayload => decide
    all_goals cases hk
  | enum ht _ => exact ⟨hshown.2, name_not_mem_roots h ht⟩
  | object ht _ => exact ⟨hshown.2, name_not_mem_roots h ht⟩
  | @aggregate t ht _ =>
    refine ⟨?_, fun hc => aggregate_not_mem_fixedNames (hroots _ hc)⟩
    have hname : (Handle.made (.of .aggregate t.name)).name = aggregateStart ++ t.name := rfl
    rw [hname, isHiddenName, String.toList_append]
    rfl
  | helper ht _ hrow _ _ =>
    rw [Handle.name, typeName_of_mem_endings hrow, isHiddenName_ending h ht (mem_generatedSuffixes hrow)]
    exact ⟨hshown.2, fun hc => append_ending_not_mem_fixedNames (mem_generatedSuffixes hrow) (hroots _ hc)⟩

/-- A type with a name that shows is made for a type that shows. -/
theorem subjectShown_of_name (hshown : NamesShown g.types) (hx : x.Valid g) (hname : isHiddenName x.name = false) :
    SubjectShown x := by
  cases hx with
  | scalar => exact trivial
  | shared hk => exact (by decide : isHiddenName "" = false)
  | enum => exact hname
  | object => exact hname
  | aggregate ht hmodel => exact hshown.models _ ht hmodel
  | helper ht _ hrow _ _ =>
    rw [Handle.name, typeName_of_mem_endings hrow, isHiddenName_ending h ht (mem_generatedSuffixes hrow)] at hname
    exact hname

end Names

/-! ## Main results -/

section References

variable {g : TypeGraph} (hshown : NamesShown g.types) {r : Request} (hr : isHiddenName r.subject = false)

include hshown hr

/-- A type that shows comes across no name that is hidden. -/
theorem isHiddenName_of_concerns {name : String} (hname : Concerns g r name) : isHiddenName name = false := by
  cases hname with
  | shared => decide
  | own => exact hr
  | related ht hsubject hf => exact hshown.fields _ ht (hsubject ▸ hr) _ hf
  | model _ ht =>
    obtain ⟨ht, hmodel⟩ := List.mem_filter.mp ht
    exact hshown.models _ ht hmodel

theorem shown_of_refers {x : Handle} (hx : Refers g r x) : Shown x := by
  cases hx with
  | leaf hx =>
    cases x with
    | made r' => exact absurd rfl (hx r')
    | _ => exact trivial
  | node => exact ⟨rfl, (by decide : isHiddenName "" = false)⟩
  | made hk hname => exact ⟨(Refers.made hk hname).isRoot_eq_false, isHiddenName_of_concerns hshown hr hname⟩

theorem fieldShown_of_part {field : OutputField Handle} (hfield : OutputPart g r field) : FieldShown field where
  type := ⟨shown_of_refers hshown hr hfield.type.refers, hfield.type.category⟩
  args argument hargument := by
    obtain ⟨x, he, hx⟩ := hfield.args argument hargument
    exact ⟨x, he, shown_of_refers hshown hr hx⟩

end References

section OfGraph

variable {g : TypeGraph} (h : WellFormed g.types) (hshown : NamesShown g.types)

include h hshown

/-- What the fields of a type refer to shows, if the type is made for one that shows. -/
theorem fieldShown_of_define {x : Handle} (hx : SubjectShown x) {d : NamedType Handle}
    (hd : define g (fresh g) x = .ok d) : ∀ entry ∈ d.body.outputFields, FieldShown entry.2 := by
  cases x with
  | made r =>
    intro entry hentry
    exact fieldShown_of_part hshown hx (gives_outputParts h r _ (outputs_of_define hd).1 entry hentry)
  | scalar =>
    cases hd
    exact List.forall_mem_nil _
  | absent =>
    cases hd
    exact List.forall_mem_nil _

omit hshown in
/-- The only interface is that of items that are found by their identifiers. -/
theorem interfaces_of_define {x : Handle} {d : NamedType Handle} (hd : define g (fresh g) x = .ok d)
    {implemented : List Handle} {fields : FieldMap (OutputField Handle)}
    (hbody : d.body = .object implemented fields) : ∀ y ∈ implemented, y = .made (.shared .node) := by
  cases x with
  | made r => exact fun y hy => (exists_of_interfaces h ((outputs_of_define hd).2 _ _ hbody) hy).2.1
  | scalar =>
    cases hd
    cases hbody
  | absent =>
    cases hd
    cases hbody

omit h in
/-- What the inputs of a type refer to shows. -/
theorem shown_of_mentions {t : ModelType} (ht : t ∈ g.types) (hvisible : isHiddenName t.name = false) {x : Handle}
    (hx : Mentions g t x) : Shown x :=
  shown_of_refers hshown (r := .of .object t.name) hvisible (refers_of_mentions ht rfl hx)

end OfGraph

end OpenCrud.Client
