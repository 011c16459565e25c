import OpenCrud.Proofs.Generate.InputFields
import OpenCrud.Proofs.Generate.OutputFields

/-!
# Every type is sound

What is made for an accepted datamodel refers to types that the schema can hold, and no modifier is put around a
type that cannot take it. Main result: `yields_define`.
-/

namespace OpenCrud.Generate

open Datamodel
open MonadExcept (ofExcept)

section Bodies

variable {g : TypeGraph} (h : WellFormed g.types)

include h

omit h in
/-- The body of an object is sound as soon as what it implements and its fields are. -/
theorem yields_objectBody (r : Request) {implemented : Except Error (List Handle)}
    {fields : Except Error (FieldMap (OutputField Handle))}
    (hinterfaces : Yields g (fun interfaces => ∀ x ∈ interfaces, x.Valid g) implemented)
    (hfields : Yields g (FieldMap.Sound (OutputField.Sound (Handle.Valid g))) fields) :
    Yields g (TypeBody.Sound (Handle.Valid g)) (do
      let implemented ← implemented
      return .object implemented (← ofExcept (checkFieldNames (← resolving r fields)))) := by
  refine hinterfaces.bind fun interfaces hinterfaces => ?_
  refine (hfields.resolving r).bind fun fields hfields => ?_
  refine (yields_checkFieldNames hfields).ofExcept.bind fun fields hfields => ?_
  exact yields_ok ⟨hinterfaces, hfields⟩

omit h in
theorem yields_plainBody (r : Request) {fields : Except Error (FieldMap (OutputField Handle))}
    (hfields : Yields g (FieldMap.Sound (OutputField.Sound (Handle.Valid g))) fields) :
    Yields g (TypeBody.Sound (Handle.Valid g)) (do
      let implemented ← pure []
      return .object implemented (← ofExcept (checkFieldNames (← resolving r fields)))) :=
  yields_objectBody r (yields_ok nofun) hfields

theorem yields_body_shared {k : Kind} (hk : k.isShared = true) :
    Yields g (TypeBody.Sound (Handle.Valid g)) (body g (fresh g) (.shared k)) := by
  cases k with
  | node =>
    have hnode : Yields g (FieldMap.Sound (OutputField.Sound (Handle.Valid g))) (.ok nodeFields) :=
      yields_ok sound_nodeFields
    refine (hnode.resolving (.shared .node)).bind fun fields hfields => ?_
    refine (yields_checkFieldNames hfields).ofExcept.bind fun fields hfields => ?_
    exact yields_ok ⟨nofun, hfields⟩
  | pageInfo => exact yields_plainBody _ (yields_ok sound_pageInfoFields)
  | batchPayload => exact yields_plainBody _ (yields_batchPayloadFields h)
  | query => exact yields_plainBody _ (yields_queryFields h)
  | mutation => exact yields_plainBody _ (yields_allMutations h)
  | _ => cases hk

/-- An object is made of what it implements and of a field for each field of the datamodel. -/
theorem yields_body_object {t : ModelType} (ht : t ∈ g.types) :
    Yields g (TypeBody.Sound (Handle.Valid g)) (body g (fresh g) (.of .object t.name)) := by
  have hsubject : subject g (.of .object t.name) = .ok t := subject_eq h ht rfl
  refine yields_objectBody (.of .object t.name) ?_ ?_
  · show Yields g _ (ofExcept (subject g (.of .object t.name)) >>= objectInterfaces (fresh g))
    rw [hsubject, ofExcept_eq, ok_bind]
    exact yields_objectInterfaces h t
  · show Yields g _ (ofExcept (subject g (.of .object t.name)) >>= objectFields g (fresh g))
    rw [hsubject, ofExcept_eq, ok_bind]
    exact yields_objectFields h ht

theorem yields_body_enum {t : ModelType} (ht : t ∈ g.types) {r : Request} (hr : r.subject = t.name)
    (hk : r.kind = .enum ∨ r.kind = .orderBy) :
    Yields g (TypeBody.Sound (Handle.Valid g)) (body g (fresh g) r) := by
  have hvalues : ∃ values, enumValues g r = .ok values := by
    rw [enumValues, subject_eq h ht hr, ok_bind]
    rcases hk with hk | hk
    · exact ⟨t.values, by rw [hk]; rfl⟩
    · obtain ⟨values, hvalues, _⟩ := orderValues_eq h ht
      exact ⟨values, by rw [hk]; exact hvalues⟩
  obtain ⟨values, hvalues⟩ := hvalues
  unfold body
  rcases hk with hk | hk
  · rw [hk, hvalues]
    exact yields_ok trivial
  · rw [hk, hvalues]
    exact yields_ok trivial

omit h in
/-- All kinds of inputs have bodies of one shape. -/
theorem body_input {r : Request} (hk : r.kind.isInput = true) : body g (fresh g) r = (do
    let t ← ofExcept (subject g r)
    return .inputObject
      (← ofExcept (checkFieldNames (← resolving r (inputFields g (fresh g) r t))))) := by
  obtain ⟨kind, subject, args⟩ := r
  cases kind <;> first | rfl | cases hk

/-- An input that is made has a sound body. -/
theorem yields_body_input {t : ModelType} (ht : t ∈ g.types) (henum : t.isEnum = false) {r : Request}
    (hr : r.subject = t.name) (hk : r.kind.isInput = true)
    (hoffers : offersInput g t r.args.required r.kind = true) :
    Yields g (TypeBody.Sound (Handle.Valid g)) (body g (fresh g) r) := by
  rw [body_input hk, subject_eq h ht hr, ofExcept_eq, ok_bind]
  refine ((yields_inputFields h ht henum fun _ => hoffers).resolving r).bind fun fields hfields => ?_
  refine (yields_checkFieldNames hfields).ofExcept.bind fun fields hfields => ?_
  exact yields_ok hfields

/-- The types that go with a type of the datamodel. An input among them is made only where it is offered. -/
theorem yields_body_helper {t : ModelType} (ht : t ∈ g.types) (henum : t.isEnum = false) {s : String}
    {k : Kind} {a : Args} (hrow : (s, k, a) ∈ endings) (hpage : k = .connection → t.isModel = true)
    (hoffers : k.isInput = true → offersInput g t a.required k = true) :
    Yields g (TypeBody.Sound (Handle.Valid g)) (body g (fresh g) ⟨k, t.name, a⟩) := by
  have hkinds : ∀ row ∈ endings, row.2.1.isInput = true ∨ row.2.1 = .orderBy ∨ row.2.1 = .edge ∨
      row.2.1 = .connection := by decide
  rcases hkinds _ hrow with hk | rfl | rfl | rfl
  · exact yields_body_input h ht henum rfl hk (hoffers hk)
  · exact yields_body_enum h ht rfl (Or.inr rfl)
  · exact yields_plainBody _ (yields_edgeFields h ht henum)
  · exact yields_plainBody _ (yields_connectionFields h ht (hpage rfl))

/-- Every type that a schema can hold has its name and is sound, unless a name is taken. -/
theorem yields_define {x : Handle} (hx : x.Valid g) :
    Yields g (fun d => d.name = x.name ∧ d.body.Sound (Handle.Valid g)) (define g (fresh g) x) := by
  have hmade : ∀ r : Request, Yields g (TypeBody.Sound (Handle.Valid g)) (body g (fresh g) r) →
      Yields g (fun d => d.name = r.typeName ∧ d.body.Sound (Handle.Valid g))
        (define g (fresh g) (.made r)) :=
    fun r hr => hr.bind fun body hbody => yields_ok ⟨rfl, hbody⟩
  cases hx with
  | scalar s => exact yields_ok ⟨rfl, trivial⟩
  | shared hk => exact hmade _ (yields_body_shared h hk)
  | enum ht _ => exact hmade _ (yields_body_enum h ht rfl (Or.inl rfl))
  | object ht _ => exact hmade _ (yields_body_object h ht)
  | @aggregate t ht _ =>
    have hbody : Yields g (TypeBody.Sound (Handle.Valid g)) (body g (fresh g) (.of .aggregate t.name)) :=
      yields_plainBody (.of .aggregate t.name) (yields_ok sound_aggregateFields)
    exact hmade _ hbody
  | helper ht henum hrow hpage hoffers => exact hmade _ (yields_body_helper h ht henum hrow hpage hoffers)

/-! ## Types and their fields -/

omit h in
/-- Sound fields pass the check of names, so a body is made exactly from the fields that are worked out. -/
theorem checkedFields_eq_ok_iff {α β : Type} {P : α → Prop} {r : Request} {fields : Except Error (FieldMap α)}
    (hfields : Yields g (FieldMap.Sound P) fields) {build : FieldMap α → β} {b : β} :
    ((do return build (← ofExcept (checkFieldNames (← resolving r fields)))) : Except Error β) = .ok b ↔
      ∃ made, fields = .ok made ∧ b = build made := by
  cases fields with
  | error e => exact ⟨nofun, nofun⟩
  | ok made =>
    have hresolved : resolving r (.ok made : Except Error _) = .ok made := rfl
    rw [hresolved, ok_bind, ofExcept_eq, checkFieldNames_eq_ok hfields, ok_bind]
    constructor
    · rintro ⟨⟩
      exact ⟨made, rfl, rfl⟩
    · rintro ⟨_, ⟨⟩, rfl⟩
      rfl

omit h in
/-- An object without interfaces is made of its fields as they are. -/
theorem define_plain_eq_ok_iff {r : Request} {fields : Except Error (FieldMap (OutputField Handle))}
    (hfields : Yields g (FieldMap.Sound (OutputField.Sound (Handle.Valid g))) fields)
    (hbody : body g (fresh g) r = (do
      return .object [] (← ofExcept (checkFieldNames (← resolving r fields)))))
    {d : NamedType Handle} :
    define g (fresh g) (.made r) = .ok d ↔ ∃ made, fields = .ok made ∧
      d = { name := r.typeName, description := description g r, body := .object [] made } := by
  rw [define, hbody, bind_eq_ok_iff]
  simp only [checkedFields_eq_ok_iff hfields]
  constructor
  · rintro ⟨_, ⟨made, hmade, rfl⟩, ⟨⟩⟩
    exact ⟨made, hmade, rfl⟩
  · rintro ⟨made, hmade, rfl⟩
    exact ⟨_, ⟨made, hmade, rfl⟩, rfl⟩

/-- An input is made of its fields as they are; that takes no more than that they have names. -/
theorem define_input_eq_ok_iff {t : ModelType} (ht : t ∈ g.types) (henum : t.isEnum = false) {r : Request}
    (hk : r.kind.isInput = true) (hr : r.subject = t.name) {d : NamedType Handle} :
    define g (fresh g) (.made r) = .ok d ↔ ∃ made, inputFields g (fresh g) r t = .ok made ∧
      d = { name := r.typeName, description := description g r, body := .inputObject made } := by
  rw [define, body_input hk, subject_eq h ht hr, ofExcept_eq, ok_bind, bind_eq_ok_iff]
  simp only [checkedFields_eq_ok_iff (yields_inputNames h ht henum r)]
  constructor
  · rintro ⟨_, ⟨made, hmade, rfl⟩, ⟨⟩⟩
    exact ⟨made, hmade, rfl⟩
  · rintro ⟨made, hmade, rfl⟩
    exact ⟨_, ⟨made, hmade, rfl⟩, rfl⟩

end Bodies

end OpenCrud.Generate
