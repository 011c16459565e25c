import OpenCrud.Proofs.Generate.Observed
import OpenCrud.Proofs.Generate.TypeName

/-!
# The requests of a run

What the generators of an accepted datamodel can ask for is a finite list that the declared types fix
(`runRequests`): each scalar, the types that exist once, two requests for an enum and eighteen for every other
type. The list is closed: answering one of its requests, or working out the answer, asks for others of the list
(`scope_runRequests`). Different requests of the list have different keys (`nodup_runKeys`).
-/

namespace OpenCrud.Generate

open Datamodel

/-! ## The list -/

/-- What the generators ask for about an enum. -/
def enumRequests (name : String) : List Request := [.of .scalar name, .of .enum name]

/-- The kinds of types that are made from a type with fields, with the arguments that the generators use. -/
def modelRows : List (Kind × Args) := [(.object, .none), (.aggregate, .none)] ++ endings.map Prod.snd

theorem mem_enumRequests {name : String} {r : Request} :
    r ∈ enumRequests name ↔ r = .of .scalar name ∨ r = .of .enum name := by
  rw [enumRequests, List.mem_cons, List.mem_singleton]

/-- What the generators ask for about a type with fields. -/
def modelRequests (name : String) : List Request := modelRows.map fun row => ⟨row.1, name, row.2⟩

/-- What the generators ask for about a declared type. -/
def declaredRequests (t : ModelType) : List Request :=
  if t.isEnum then enumRequests t.name else modelRequests t.name

/-- The kinds of types that exist once per schema. -/
def sharedKinds : List Kind := [.node, .pageInfo, .batchPayload, .query, .mutation]

/-- What the generators ask for whatever is declared. -/
def commonRequests : List Request :=
  Scalar.all.map (fun s => .of .scalar s.name) ++ sharedKinds.map .shared

/-- All that the generators ask for. -/
def runRequests (g : TypeGraph) : List Request := commonRequests ++ g.types.flatMap declaredRequests

/-- The keys of all that the generators ask for. -/
def runKeys (g : TypeGraph) : List Key := (runRequests g).map Request.key

section Members

variable {g : TypeGraph} {t : ModelType}

theorem scalar_mem_runRequests (s : Scalar) : .of .scalar s.name ∈ runRequests g :=
  List.mem_append_left _ (List.mem_append_left _ (List.mem_map.mpr ⟨s, Scalar.mem_all s, rfl⟩))

theorem shared_mem_runRequests {kind : Kind} (hk : kind.isShared = true) : .shared kind ∈ runRequests g := by
  have hmem : kind ∈ sharedKinds := by cases kind <;> first | decide | cases hk
  exact List.mem_append_left _ (List.mem_append_right _ (List.mem_map_of_mem hmem))

theorem declared_mem_runRequests (ht : t ∈ g.types) {r : Request} (hr : r ∈ declaredRequests t) :
    r ∈ runRequests g :=
  List.mem_append_right _ (List.mem_flatMap.mpr ⟨t, ht, hr⟩)

theorem enum_mem_runRequests (ht : t ∈ g.types) (henum : t.isEnum = true) {r : Request}
    (hr : r ∈ enumRequests t.name) : r ∈ runRequests g := by
  refine declared_mem_runRequests ht ?_
  rw [declaredRequests, if_pos henum]
  exact hr

theorem model_mem_runRequests (ht : t ∈ g.types) (henum : t.isEnum = false) {kind : Kind} {args : Args}
    (hrow : (kind, args) ∈ modelRows) : ⟨kind, t.name, args⟩ ∈ runRequests g := by
  refine declared_mem_runRequests ht ?_
  rw [declaredRequests, if_neg (Bool.not_eq_true _ ▸ henum)]
  exact List.mem_map.mpr ⟨(kind, args), hrow, rfl⟩

/-- A request of a run is one for a scalar, for a type that exists once, or about a declared type. -/
theorem mem_runRequests {r : Request} (hr : r ∈ runRequests g) :
    (∃ s : Scalar, r = .of .scalar s.name) ∨ (∃ kind ∈ sharedKinds, r = .shared kind) ∨
      (∃ t ∈ g.types, t.isEnum = true ∧ r ∈ enumRequests t.name) ∨
        ∃ t ∈ g.types, t.isEnum = false ∧ ∃ row ∈ modelRows, r = ⟨row.1, t.name, row.2⟩ := by
  rcases List.mem_append.mp hr with hr | hr
  · rcases List.mem_append.mp hr with hr | hr
    · obtain ⟨s, _, rfl⟩ := List.mem_map.mp hr
      exact Or.inl ⟨s, rfl⟩
    · obtain ⟨kind, hkind, rfl⟩ := List.mem_map.mp hr
      exact Or.inr (Or.inl ⟨kind, hkind, rfl⟩)
  · obtain ⟨t, ht, hr⟩ := List.mem_flatMap.mp hr
    unfold declaredRequests at hr
    split at hr
    · rename_i henum
      exact Or.inr (Or.inr (Or.inl ⟨t, ht, henum, hr⟩))
    · rename_i henum
      obtain ⟨row, hrow, rfl⟩ := List.mem_map.mp hr
      exact Or.inr (Or.inr (Or.inr ⟨t, ht, Bool.not_eq_true _ ▸ henum, row, hrow, rfl⟩))

end Members

/-! ## The list is closed -/

section Closed

variable {g : TypeGraph}

/-- The requests of a run contain all that the generators ask for about a type with fields. -/
theorem covers_model {t : ModelType} (ht : t ∈ g.types) (henum : t.isEnum = false) :
    Covers (· ∈ runRequests g) t.name where
  of kind hk hne := by
    have hrow : (kind, Args.none) ∈ modelRows := by
      cases kind <;> first | decide | exact absurd rfl hne | cases hk
    exact model_mem_runRequests ht henum hrow
  nestedUpdate := model_mem_runRequests ht henum (by decide)
  updateOne required := model_mem_runRequests ht henum (by cases required <;> decide)

variable (h : WellFormed g.types)

include h

/-- What a field points at is a scalar, an enum or a type with fields, and each has its requests in the list. -/
theorem points_field {t : ModelType} (ht : t ∈ g.types) {f : ModelField} (hf : f ∈ t.fields) :
    Points (· ∈ runRequests g) g f := by
  rcases target_of_mem h ht hf with ⟨s, hname, htarget⟩ | ⟨u, hu, hname, henum, htarget⟩ |
    ⟨u, hu, hname, henum, _, htarget⟩
  · refine ⟨fun _ => ?_, fun v hv => ?_⟩
    · rw [hname]
      exact scalar_mem_runRequests s
    · rw [htarget] at hv
      cases hv
  · refine ⟨fun _ => ?_, fun v hv => ?_⟩
    · rw [hname]
      exact enum_mem_runRequests hu henum List.mem_cons_self
    · rw [htarget] at hv
      cases hv
  · refine ⟨fun hleaf => ?_, fun v hv => ?_⟩
    · rw [Correspondence.isLeafField_of_target htarget] at hleaf
      cases hleaf
    · rw [htarget] at hv
      cases hv
      exact covers_model hu henum

/-- Whatever is asked for while a request of the list is answered belongs to the list. -/
theorem supports_runRequests {r : Request} (hr : r ∈ runRequests g) :
    Supports (· ∈ runRequests g) g r where
  shared _ hk := shared_mem_runRequests hk
  long := scalar_mem_runRequests .long
  enum _ t hfind henum :=
    enum_mem_runRequests (TypeGraph.mem_of_find? hfind).1 henum (List.mem_cons_of_mem _ List.mem_cons_self)
  self hk := by
    rcases mem_runRequests hr with
      ⟨s, rfl⟩ | ⟨kind, hkind, rfl⟩ | ⟨t, _, _, hr⟩ | ⟨t, ht, henum, row, _, rfl⟩
    · cases hk
    · have hshared : ∀ kind ∈ sharedKinds, kind.isOfModel = false := by decide
      exact absurd (hk.symm.trans (hshared kind hkind)) nofun
    · rcases mem_enumRequests.mp hr with rfl | rfl
      · cases hk
      · cases hk
    · exact covers_model ht henum
  fields _ _ hfind _ hf := points_field h (TypeGraph.mem_of_find? hfind).1 hf
  models t ht :=
    covers_model (List.mem_filter.mp ht).1 (ModelType.isEnum_of_isModel (List.mem_filter.mp ht).2)

omit h in
/-- A run asks properly: the arguments in the table are those of the generators. -/
theorem proper_runRequests {r : Request} (hr : r ∈ runRequests g) : r.Proper Args.Own := by
  have hown := Args.distinct_own
  rcases mem_runRequests hr with ⟨s, rfl⟩ | ⟨kind, _, rfl⟩ | ⟨t, _, _, hr⟩ | ⟨t, _, _, row, hrow, rfl⟩
  · exact proper_of hown rfl _
  · exact proper_shared hown kind
  · rcases mem_enumRequests.mp hr with rfl | rfl
    · exact proper_of hown rfl _
    · exact proper_of hown rfl _
  · have hrows : ∀ row ∈ modelRows, row.1.isShared = false ∧
        (row.2 = .none ∨ row.2 = .isNested ∨ row.2 = .ofRequired false ∨ row.2 = .ofRequired true) := by decide
    obtain ⟨hshared, hargs⟩ := hrows row hrow
    refine ⟨?_, fun hs => absurd (hshared.symm.trans hs) nofun⟩
    rcases hargs with hargs | hargs | hargs | hargs
    · exact hargs ▸ hown.none
    · exact hargs ▸ hown.isNested
    · exact hargs ▸ hown.ofRequired false
    · exact hargs ▸ hown.ofRequired true

theorem scope_runRequests : Scope (· ∈ runRequests g) g :=
  ⟨fun _ => proper_runRequests, fun _ => supports_runRequests h⟩

omit h in
/-- Whatever a schema can hold is answered by a request of the list. -/
theorem mem_runRequests_of_valid {r : Request} (hr : Handle.Valid g (.made r)) : r ∈ runRequests g := by
  cases hr with
  | shared hk => exact shared_mem_runRequests hk
  | enum ht henum => exact enum_mem_runRequests ht henum (List.mem_cons_of_mem _ List.mem_cons_self)
  | object ht henum => exact model_mem_runRequests ht henum (by decide)
  | aggregate ht hmodel => exact model_mem_runRequests ht (ModelType.isEnum_of_isModel hmodel) (by decide)
  | helper ht henum hrow _ _ =>
    exact model_mem_runRequests ht henum (List.mem_append_right _ (List.mem_map.mpr ⟨_, hrow, rfl⟩))

/-! ## How many there are -/

omit h in
/-- The requests for a declared type are about that type. -/
theorem subject_of_mem_declaredRequests {t : ModelType} {r : Request} (hr : r ∈ declaredRequests t) :
    r.subject = t.name := by
  unfold declaredRequests at hr
  split at hr
  · rcases mem_enumRequests.mp hr with rfl | rfl <;> rfl
  · obtain ⟨row, _, rfl⟩ := List.mem_map.mp hr
    rfl

omit h in
theorem nodup_declaredRequests (t : ModelType) : (declaredRequests t).Nodup := by
  unfold declaredRequests
  split
  · have hne : Request.of .scalar t.name ≠ .of .enum t.name := nofun
    exact List.nodup_cons.mpr ⟨fun hmem => hne (List.mem_singleton.mp hmem), List.nodup_singleton _⟩
  · refine List.Nodup.map ?_ (by decide)
    rintro ⟨kind, args⟩ ⟨kind', args'⟩ heq
    cases heq
    rfl

/-- No request is listed twice: kind, subject and arguments tell the parts of the list apart. -/
theorem nodup_runRequests : (runRequests g).Nodup := by
  have hcommon : (commonRequests).Nodup := by decide
  have hdeclared : (g.types.flatMap declaredRequests).Nodup := by
    refine List.nodup_flatMap.mpr ⟨fun t _ => nodup_declaredRequests t, ?_⟩
    refine (List.pairwise_map.mp h.nodup_names).imp fun hne r hr hr' => ?_
    exact hne ((subject_of_mem_declaredRequests hr).symm.trans (subject_of_mem_declaredRequests hr'))
  rw [runRequests, List.nodup_append]
  refine ⟨hcommon, hdeclared, fun r hr r' hr' heq => ?_⟩
  subst heq
  -- What is common is made from a scalar or from no type at all, and no declared type is called like that.
  have hsubjects : ∀ r ∈ commonRequests, Scalar.isScalar r.subject = true ∨ r.subject = "" := by decide
  obtain ⟨t, ht, hr'⟩ := List.mem_flatMap.mp hr'
  have htype := h.type t ht
  have hsubject := hsubjects r hr
  rw [subject_of_mem_declaredRequests hr'] at hsubject
  rcases hsubject with hscalar | hempty
  · rw [htype.not_scalar] at hscalar
    cases hscalar
  · have hname := htype.isName_name
    rw [hempty] at hname
    cases hname

/-- Different requests of the list have different keys. -/
theorem nodup_runKeys : (runKeys g).Nodup :=
  (nodup_runRequests h).map_on fun _ hr _ hr' =>
    Request.eq_of_key Args.distinct_own (proper_runRequests hr) (proper_runRequests hr')

omit h in
/-- Nine scalars, five shared types, two requests for each enum and eighteen for each type with fields. -/
theorem length_runKeys (g : TypeGraph) : (runKeys g).length =
    9 + 5 + 2 * (g.types.filter (·.isEnum)).length + 18 * (g.types.filter (!·.isEnum)).length := by
  have hcommon : commonRequests.length = 9 + 5 := rfl
  have hdeclared : ∀ ts : List ModelType, (ts.flatMap declaredRequests).length =
      2 * (ts.filter (·.isEnum)).length + 18 * (ts.filter (!·.isEnum)).length := by
    intro ts
    induction ts with
    | nil => rfl
    | cons t ts ih =>
      rw [List.flatMap_cons, List.length_append, ih, List.filter_cons, List.filter_cons, declaredRequests]
      cases t.isEnum with
      | true =>
        have hone : (enumRequests t.name).length = 2 := rfl
        simp only [if_true, Bool.not_true, Bool.false_eq_true, if_false, hone, List.length_cons]
        omega
      | false =>
        have hone : (modelRequests t.name).length = 18 := rfl
        simp only [if_true, Bool.not_false, Bool.false_eq_true, if_false, hone, List.length_cons]
        omega
  rw [runKeys, List.length_map, runRequests, List.length_append, hcommon, hdeclared]
  omega

end Closed

end OpenCrud.Generate
