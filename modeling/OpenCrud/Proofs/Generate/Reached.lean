import OpenCrud.Proofs.Generate.Bodies

/-!
# Types that generation reaches

Generation starts from the root types and the types of the datamodel and follows the references of what it
made (`Handle.ReachedFrom`). Main result: in an accepted datamodel everything on the way exists and is
sound, whatever a run remembers by then (`soundRun_of_parse`). That an input which another one needs exists is no
matter of how its fields are made: what refers to it is made only where it exists.
-/

namespace OpenCrud.Generate

open Datamodel

/-- The types that are reached from some types by looking at one type after the other. -/
inductive Handle.ReachedFrom (g : TypeGraph) (roots : List Handle) : Handle → Prop
  | root {x : Handle} (hx : x ∈ roots) : ReachedFrom g roots x
  | ref {x y : Handle} {d : NamedType Handle} (hx : ReachedFrom g roots x)
    (hd : define g (fresh g) x = .ok d) (hy : y ∈ d.body.refs) : ReachedFrom g roots y

/-- A type of the datamodel as a type of the schema. -/
def ownType (t : ModelType) : Handle := .made (.of (if t.isEnum then .enum else .object) t.name)

/-- The requests that generation starts with: for the root types and for the types of the datamodel. -/
def startRequests (g : TypeGraph) : List Request :=
  [.shared .query, .shared .mutation] ++ g.types.map ownRequest

/-- The types that generation starts from. -/
def startTypes (g : TypeGraph) : List Handle :=
  [.made (.shared .query), .made (.shared .mutation)] ++ g.types.map ownType

section Reached

variable {g : TypeGraph}

theorem valid_ownType {t : ModelType} (ht : t ∈ g.types) : (ownType t).Valid g := by
  unfold ownType
  cases henum : t.isEnum with
  | true => exact .enum ht henum
  | false => exact .object ht henum

theorem valid_startTypes : ∀ x ∈ startTypes g, x.Valid g := by
  intro x hx
  rcases List.mem_append.mp hx with hx | hx
  · simp only [List.mem_cons, List.not_mem_nil, or_false] at hx
    rcases hx with rfl | rfl
    · exact .shared rfl
    · exact .shared rfl
  · obtain ⟨t, ht, rfl⟩ := List.mem_map.mp hx
    exact valid_ownType ht

variable (h : WellFormed g.types)

include h

/-- A type that is reached from types that a schema can hold is a type that a schema can hold. -/
theorem valid_of_reachedFrom {roots : List Handle} (hroots : ∀ x ∈ roots, x.Valid g) {x : Handle}
    (hx : x.ReachedFrom g roots) : x.Valid g := by
  induction hx with
  | root hx => exact hroots _ hx
  | ref _ hd hy ih =>
    have hdefine := yields_define h ih
    rw [hd] at hdefine
    exact hdefine.2.refs _ hy

/-- An input that a schema can hold is the answer to the request that it is made for. -/
theorem answered_of_valid {r : Request} (hr : Handle.Valid g (.made r)) (hk : r.kind.isInput = true) :
    r.Proper Args.Own ∧ fresh g r = .ok (some (.made r)) := by
  cases hr with
  | shared hshared => exact absurd (hshared.symm.trans (Kind.isShared_of_isInput hk)) Bool.noConfusion
  | enum _ _ => cases hk
  | object _ _ => cases hk
  | aggregate _ _ => cases hk
  | helper ht _ hrow _ hoffers =>
    refine ⟨proper_of_isInput hk (own_of_mem_endings hrow), ?_⟩
    rw [fresh_input h ht hk rfl, hoffers hk]
    rfl

theorem yields_ownRequest {t : ModelType} (ht : t ∈ g.types) :
    Yields g (· = some (ownType t)) (fresh g (ownRequest t)) := by
  unfold ownRequest ownType
  cases henum : t.isEnum with
  | true =>
    rw [if_pos rfl, if_pos rfl, fresh_scalar_enum h ht henum, fresh_enum h ht henum]
    exact (yields_make h ht rfl).bind fun _ hx => yields_ok (congrArg some hx)
  | false =>
    rw [if_neg Bool.false_ne_true, if_neg Bool.false_ne_true, fresh_object h ht]
    exact (yields_make h ht rfl).bind fun _ hx => yields_ok (congrArg some hx)

theorem yields_startRequests {r : Request} (hr : r ∈ startRequests g) :
    Yields g (fun made => ∃ x ∈ startTypes g, made = some x) (fresh g r) := by
  rcases List.mem_append.mp hr with hr | hr
  · simp only [List.mem_cons, List.not_mem_nil, or_false] at hr
    rcases hr with rfl | rfl
    · exact yields_of_eq (fresh_shared h rfl) ⟨_, by simp [startTypes], rfl⟩
    · exact yields_of_eq (fresh_shared h rfl) ⟨_, by simp [startTypes], rfl⟩
  · obtain ⟨t, ht, rfl⟩ := List.mem_map.mp hr
    refine (yields_ownRequest h ht).mono fun made hmade => ⟨ownType t, ?_, hmade⟩
    exact List.mem_append_right _ (List.mem_map_of_mem ht)

end Reached

/-! ## Main result -/

/--
What generation meets in a run that remembers what is in a cache.

What is reached can be held, so it is not missing, and an input that is reached is what its request is answered with.
The last two parts are about fields that can lose their places to later fields of the same names: they are
sound as well.
-/
structure SoundRun (g : TypeGraph) (c : Cache) : Prop where
  start : ∀ r ∈ startRequests g,
    Yields g (fun made => ∃ x ∈ startTypes g, made = some x) ((answer g r).run c).1
  reached : ∀ x : Handle, x.ReachedFrom g (startTypes g) → x.Valid g ∧
    Yields g (fun d => d.body.Sound (Handle.Valid g)) ((define g (answer g) x).run c).1
  inputs : ∀ r : Request, Handle.ReachedFrom g (startTypes g) (.made r) → r.kind.isInput = true →
    ((answer g r).run c).1 = .ok (some (.made r))
  filters : ∀ t ∈ g.types, ∀ f ∈ t.fields,
    Yields g (fun made => ∀ map ∈ made, FieldMap.Sound (InputField.Sound (Handle.Valid g)) map)
      ((fieldFilters g (answer g) f).run c).1
  queries : ∀ t ∈ g.models, Yields g (FieldMap.Sound (OutputField.Sound (Handle.Valid g)))
    ((modelQueries (answer g) t.name).run c).1

/-- All that generation reaches in an accepted datamodel exists and is sound, in every state of a run. Only
a type that is called like a type by which schemas describe themselves stops it. -/
theorem soundRun_of_parse {database : Database} {source : List Char} {types : List ModelType}
    (h : parse database source = .ok types) {c : Cache} (hc : c.Reached (.ofTypes types)) :
    SoundRun (.ofTypes types) c := by
  have hwf := (wellFormed_of_parse h).ofTypes
  have hasks := asks_answer Args.distinct_own (.ofTypes types)
  -- What a run remembers makes no difference, so all is told of requests by themselves.
  refine ⟨fun r hr => ?_, fun x hx => ?_, fun r hr hk => ?_, fun t ht f hf => ?_, fun t ht => ?_⟩
  · have hproper : r.Proper Args.Own := by
      rcases List.mem_append.mp hr with hr | hr
      · simp only [List.mem_cons, List.not_mem_nil, or_false] at hr
        rcases hr with rfl | rfl <;> exact ⟨Or.inl rfl, fun _ => rfl⟩
      · obtain ⟨t, _, rfl⟩ := List.mem_map.mp hr
        unfold ownRequest
        split <;> exact ⟨Or.inl rfl, nofun⟩
    rw [run_answer hc hproper]
    exact yields_startRequests hwf hr
  · have hvalid := valid_of_reachedFrom hwf valid_startTypes hx
    refine ⟨hvalid, ?_⟩
    rw [run_define hc]
    exact (yields_define hwf hvalid).mono fun d hd => hd.2
  · obtain ⟨hproper, hanswer⟩ := answered_of_valid hwf (valid_of_reachedFrom hwf valid_startTypes hr) hk
    rw [run_answer hc hproper, hanswer]
  · rw [(Correspondence.holds_fieldFilters hasks _ f c hc.sound).1]
    exact yields_fieldFilters hwf ht hf
  · obtain ⟨ht, hmodel⟩ := List.mem_filter.mp ht
    rw [(Correspondence.holds_modelQueries hasks t.name c hc.sound).1]
    exact yields_modelQueries hwf ht hmodel

/-- A datamodel with a circle of relations, an embedded type and an enum. -/
def circleSource : List Char :=
  "type User { id: ID! @id posts: [Post] at: Place! role: Role } ".toList ++
    "type Post { id: ID! @id author: User! } type Place @embedded { name: String } ".toList ++
    "enum Role { ADMIN }".toList

theorem soundRun_circle : ∃ types, parse .document circleSource = .ok types ∧
    SoundRun (.ofTypes types) ((answer (.ofTypes types) (.of .createMany "Post")).run {}).2 := by
  obtain ⟨types, h⟩ : ∃ types, parse .document circleSource = .ok types :=
    exists_eq_ok (by decide +kernel)
  exact ⟨types, h, soundRun_of_parse h (.answer .start ⟨Or.inl rfl, nofun⟩)⟩

end OpenCrud.Generate
