import OpenCrud.Proofs.Generate.Yields

/-!
# References lead somewhere

What the types of an accepted datamodel refer to is asked for while they are made. Every request has one lemma
below: its answer is a type that the schema can hold (`Handle.Valid`), or none where the asker can do
without.
-/

namespace OpenCrud.Generate

open Datamodel
open MonadExcept (ofExcept)

/-! ## Types that can be held -/

/-- A type that can be held is no missing type. -/
theorem Handle.Valid.ne_absent {g : TypeGraph} {x : Handle} (h : x.Valid g) : x ≠ .absent := by
  rintro rfl
  cases h

theorem forall_mem_madeIf {P : Handle → Prop} {b : Bool} {r : Request} (h : b = true → P (.made r)) :
    ∀ x ∈ madeIf b r, P x := by
  cases b with
  | false => exact nofun
  | true =>
    rintro _ ⟨⟩
    exact h rfl

/-- An input can be held where its type has something to write or to select by. -/
theorem valid_input {g : TypeGraph} {t : ModelType} (ht : t ∈ g.types) (henum : t.isEnum = false) {s : String}
    {k : Kind} {a : Args} (hrow : (s, k, a) ∈ endings) (hk : k.isInput = true)
    (hoffers : offersInput g t a.required k = true) : Handle.Valid g (.made ⟨k, t.name, a⟩) := by
  refine .helper ht henum hrow ?_ fun _ => hoffers
  rintro rfl
  cases hk

section Modifiers

variable {g : TypeGraph}

theorem sound_named {x : Handle} (hx : x.Valid g) : (TypeExpr.named x).Sound (Handle.Valid g) := hx

theorem sound_nonNull {x : Handle} (hx : x.Valid g) :
    (TypeExpr.nonNull (.named x)).Sound (Handle.Valid g) := ⟨rfl, hx⟩

theorem sound_scalarType (s : Scalar) : (scalarType s).Sound (Handle.Valid g) := .scalar s

/-- A modifier that makes a type not null fits where the type can be null. -/
theorem sound_requiredIf {required : Bool} {e : TypeExpr Handle} (he : e.Sound (Handle.Valid g))
    (hnull : e.isNonNull = false) : (requiredIf required e).Sound (Handle.Valid g) := by
  cases required with
  | true => exact ⟨hnull, he⟩
  | false => exact he

end Modifiers

/-! ## Types that are asked for -/

/-- Who uses the answer to a request without looking needs that there is one. -/
theorem yields_type {g : TypeGraph} {P : Handle → Prop} {ask : Ask (Except Error)} {r : Request}
    (hr : Yields g (fun made => ∃ x, made = some x ∧ P x) (ask r)) : Yields g P (ask.type r) := by
  refine hr.bind ?_
  rintro _ ⟨x, rfl, hx⟩
  exact yields_ok hx

theorem yields_type_of_eq {g : TypeGraph} {P : Handle → Prop} {ask : Ask (Except Error)} {r : Request}
    {x : Handle} (hr : ask r = .ok (some x)) (hx : P x) : Yields g P (ask.type r) :=
  yields_type (yields_of_eq hr ⟨x, rfl, hx⟩)

section Asked

variable {g : TypeGraph} (h : WellFormed g.types)

include h

/-- A type of the datamodel is made under its own name, unless that is taken. -/
theorem yields_make {t : ModelType} (ht : t ∈ g.types) {r : Request} (hr : r.typeName = t.name) :
    Yields g (· = .made r) (make r) := by
  rw [make_of_typeName_eq (h.type t ht) hr]
  split
  · rename_i hname
    exact ⟨t, ht, hname, rfl⟩
  · exact yields_ok rfl

theorem yields_shared {k : Kind} (hk : k.isShared = true) :
    Yields g (Handle.Valid g) (Ask.type (fresh g) (.shared k)) :=
  yields_type_of_eq (fresh_shared h hk) (.shared hk)

theorem yields_scalar (s : Scalar) :
    Yields g (Handle.Valid g) (Ask.type (fresh g) (.of .scalar s.name)) :=
  yields_type_of_eq (fresh_scalar h s) (.scalar s)

section OfType

variable {t : ModelType} (ht : t ∈ g.types)

include ht

theorem yields_object (henum : t.isEnum = false) :
    Yields g (fun made => ∃ x, made = some x ∧ x.Valid g) (fresh g (.of .object t.name)) := by
  rw [fresh_object h ht]
  refine (yields_make h ht rfl).bind ?_
  rintro _ rfl
  exact yields_ok ⟨_, rfl, .object ht henum⟩

theorem yields_enum (henum : t.isEnum = true) :
    Yields g (fun made => ∃ x, made = some x ∧ x.Valid g) (fresh g (.of .scalar t.name)) := by
  rw [fresh_scalar_enum h ht henum, fresh_enum h ht henum]
  refine (yields_make h ht rfl).bind ?_
  rintro _ rfl
  exact yields_ok ⟨_, rfl, .enum ht henum⟩

/-- An input may be missing; what there is can be held. -/
theorem yields_input (henum : t.isEnum = false) {s : String} {k : Kind} {a : Args}
    (hrow : (s, k, a) ∈ endings) (hk : k.isInput = true) :
    Yields g (fun made => ∀ x ∈ made, x.Valid g) (fresh g ⟨k, t.name, a⟩) :=
  yields_of_eq (fresh_input h ht hk rfl) (forall_mem_madeIf (valid_input ht henum hrow hk))

/-- There is a filter for every type: the logical operators are always in it. -/
theorem yields_whereInput (henum : t.isEnum = false) :
    Yields g (Handle.Valid g) (Ask.type (fresh g) (.of .whereInput t.name)) :=
  yields_type_of_eq (fresh_whereInput h ht)
    (valid_input ht henum (by decide : ("WhereInput", .whereInput, .none) ∈ endings) rfl rfl)

theorem yields_orderBy (henum : t.isEnum = false) :
    Yields g (fun made => ∀ x ∈ made, x.Valid g) (fresh g (.of .orderBy t.name)) :=
  yields_of_eq (fresh_orderBy h ht) (forall_mem_madeIf fun _ =>
    .helper ht henum (by decide : ("OrderByInput", .orderBy, .none) ∈ endings) nofun nofun)

theorem yields_edge (henum : t.isEnum = false) :
    Yields g (Handle.Valid g) (Ask.type (fresh g) (.of .edge t.name)) :=
  yields_type_of_eq (fresh_edge h ht)
    (.helper ht henum (by decide : ("Edge", .edge, .none) ∈ endings) nofun nofun)

theorem yields_aggregate (hmodel : t.isModel = true) :
    Yields g (Handle.Valid g) (Ask.type (fresh g) (.of .aggregate t.name)) :=
  yields_type_of_eq (fresh_aggregate h ht) (.aggregate ht hmodel)

/-- Only models have pages. -/
theorem yields_connection (hmodel : t.isModel = true) :
    Yields g (Handle.Valid g) (Ask.type (fresh g) (.of .connection t.name)) :=
  yields_type_of_eq (fresh_connection h ht)
    (.helper ht (ModelType.isEnum_of_isModel hmodel)
      (by decide : ("Connection", .connection, .none) ∈ endings) (fun _ => hmodel) nofun)

end OfType

/-! ## Types of fields -/

section OfField

variable {t : ModelType} (ht : t ∈ g.types) {f : ModelField} (hf : f ∈ t.fields)

include ht hf

/-- A field that points at a scalar or an enum points at one that there is. -/
theorem yields_leafType (hleaf : isLeafOf g f = true) :
    Yields g (fun e => ∃ x : Handle, e = .named x ∧ x.Valid g) (leafType (fresh g) f) := by
  have htype : Yields g (Handle.Valid g) (Ask.type (fresh g) (.of .scalar f.typeName)) := by
    rcases target_of_mem h ht hf with ⟨s, hs, _⟩ | ⟨u, hu, hname, henum, _⟩ | ⟨u, _, _, _, _, htarget⟩
    · rw [hs]
      exact yields_scalar h s
    · rw [hname]
      exact yields_type (yields_enum h hu henum)
    · rw [isLeafOf, htarget] at hleaf
      cases hleaf
  exact htype.bind fun x hx => yields_ok ⟨x, rfl, hx⟩

/-- The type of a field that may be left out can be made not null, as it is where the field is required. -/
theorem yields_optionalType (hleaf : isLeafOf g f = true) :
    Yields g (fun e => e.Sound (Handle.Valid g) ∧ e.isNonNull = false) (optionalType (fresh g) f) := by
  refine (yields_leafType h ht hf hleaf).bind ?_
  rintro _ ⟨x, rfl, hx⟩
  cases f.isList with
  | true => exact yields_ok ⟨⟨rfl, hx⟩, rfl⟩
  | false => exact yields_ok ⟨hx, rfl⟩

theorem yields_outputType (hleaf : isLeafOf g f = true) :
    Yields g (TypeExpr.Sound (Handle.Valid g)) (outputType (fresh g) f) :=
  (yields_optionalType h ht hf hleaf).bind fun _ he => yields_ok (sound_requiredIf he.1 he.2)

theorem yields_inputType (hleaf : isLeafOf g f = true) :
    Yields g (TypeExpr.Sound (Handle.Valid g)) (inputType (fresh g) f) :=
  (yields_optionalType h ht hf hleaf).bind fun _ he => yields_ok (sound_requiredIf he.1 he.2)

theorem yields_optionalField (hleaf : isLeafOf g f = true) :
    Yields g (fun entry => isName entry.1.toList = true ∧ entry.2.Sound (Handle.Valid g))
      (optionalField (fresh g) f) :=
  (yields_optionalType h ht hf hleaf).bind fun _ he =>
    yields_ok ⟨((h.type t ht).field f hf).isName_name, he.1⟩

end OfField

end Asked

end OpenCrud.Generate
