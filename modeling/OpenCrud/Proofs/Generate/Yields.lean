import OpenCrud.Proofs.FieldMap
import OpenCrud.Proofs.Generate.Answers

/-!
# Sound types

What a type looks like whose references all lead somewhere and whose modifiers fit (`TypeBody.Sound`), and what
it means that a computation gives a result with a property unless a name is taken (`Yields`). One thing only can
go wrong while the types of an accepted datamodel are worked out: a type of the datamodel is called like a
type by which schemas describe themselves.
-/

namespace OpenCrud

open Generate

/-! ## Sound types -/

section Sound

variable {ρ : Type} (P : ρ → Prop)

/-- A type expression whose reference has a property and in which nothing is made not null twice. -/
def TypeExpr.Sound : TypeExpr ρ → Prop
  | .named ref => P ref
  | .list item => item.Sound
  | .nonNull inner => inner.isNonNull = false ∧ inner.Sound

/-- A field map whose keys are names and whose values have a property. -/
def FieldMap.Sound {α : Type} (Q : α → Prop) (fields : FieldMap α) : Prop :=
  ∀ entry ∈ fields, isName entry.1.toList = true ∧ Q entry.2

/-- An argument or an input field of a sound type. -/
def InputField.Sound (field : InputField ρ) : Prop := field.type.Sound P

/-- An output field of a sound type with sound arguments. -/
def OutputField.Sound (field : OutputField ρ) : Prop :=
  field.type.Sound P ∧ field.args.Sound (InputField.Sound P)

/-- A body whose references have a property and whose fields have names and sound types. -/
def TypeBody.Sound : TypeBody ρ → Prop
  | .scalar _ | .enum _ => True
  | .object interfaces fields | .interface interfaces fields =>
    (∀ ref ∈ interfaces, P ref) ∧ fields.Sound (OutputField.Sound P)
  | .union members => ∀ ref ∈ members, P ref
  | .inputObject fields _ => fields.Sound (InputField.Sound P)

variable {P}

/-- The type under all lists and marks has the property. -/
theorem TypeExpr.Sound.base {t : TypeExpr ρ} (h : t.Sound P) : P t.base := by
  induction t with
  | named => exact h
  | list _ ih => exact ih h
  | nonNull _ ih => exact ih h.2

/-- A field refers to its type and to the types of its arguments, which all have the property. -/
theorem OutputField.Sound.refs {field : OutputField ρ} (h : field.Sound P) :
    ∀ ref ∈ field.refs, P ref := by
  intro ref href
  rcases List.mem_cons.mp href with rfl | href
  · exact h.1.base
  · obtain ⟨arg, harg, rfl⟩ := List.mem_map.mp href
    exact TypeExpr.Sound.base (h.2 arg harg).2

/-- The references of a sound body have the property. -/
theorem TypeBody.Sound.refs {body : TypeBody ρ} (h : body.Sound P) : ∀ ref ∈ body.refs, P ref := by
  have houtput : ∀ (interfaces : List ρ) (fields : FieldMap (OutputField ρ)),
      (∀ ref ∈ interfaces, P ref) ∧ fields.Sound (OutputField.Sound P) →
        ∀ ref ∈ interfaces ++ fields.flatMap (fun entry => entry.2.refs), P ref := by
    intro interfaces fields hsound ref href
    rcases List.mem_append.mp href with href | href
    · exact hsound.1 ref href
    · obtain ⟨entry, hentry, href⟩ := List.mem_flatMap.mp href
      exact OutputField.Sound.refs (hsound.2 entry hentry).2 ref href
  cases body with
  | scalar => exact nofun
  | enum => exact nofun
  | object interfaces fields => exact houtput interfaces fields h
  | interface interfaces fields => exact houtput interfaces fields h
  | union members => exact h
  | inputObject fields isOneOf =>
    intro ref href
    obtain ⟨entry, hentry, rfl⟩ := List.mem_map.mp href
    exact TypeExpr.Sound.base (h entry hentry).2

section Map

variable {σ : Type} {R : σ → Prop} {f : ρ → σ} (hf : ∀ ref, P ref → R (f ref))

include hf

/-- Renaming the references keeps the lists and marks as they are. -/
theorem TypeExpr.Sound.map {t : TypeExpr ρ} (h : t.Sound P) : (t.map f).Sound R := by
  induction t with
  | named => exact hf _ h
  | list _ ih => exact ih h
  | nonNull inner ih => exact ⟨(TypeExpr.isNonNull_map f inner).trans h.1, ih h.2⟩

theorem FieldMap.Sound.inputs {fields : FieldMap (InputField ρ)} (h : fields.Sound (InputField.Sound P)) :
    FieldMap.Sound (InputField.Sound R) (List.map (fun entry => (entry.1, entry.2.map f)) fields) :=
  List.forall_mem_map.mpr fun entry hentry => ⟨(h entry hentry).1, TypeExpr.Sound.map hf (h entry hentry).2⟩

theorem FieldMap.Sound.outputs {fields : FieldMap (OutputField ρ)} (h : fields.Sound (OutputField.Sound P)) :
    FieldMap.Sound (OutputField.Sound R) (List.map (fun entry => (entry.1, entry.2.map f)) fields) :=
  List.forall_mem_map.mpr fun entry hentry =>
    ⟨(h entry hentry).1, (h entry hentry).2.1.map hf, FieldMap.Sound.inputs hf (h entry hentry).2.2⟩

/-- A sound body stays sound under other references. -/
theorem TypeBody.Sound.map {body : TypeBody ρ} (h : body.Sound P) : (body.map f).Sound R := by
  have hrefs : ∀ {refs : List ρ}, (∀ ref ∈ refs, P ref) → ∀ ref ∈ refs.map f, R ref := fun hrefs =>
    List.forall_mem_map.mpr fun ref href => hf ref (hrefs ref href)
  cases body with
  | scalar => trivial
  | enum => trivial
  | object => exact ⟨hrefs h.1, FieldMap.Sound.outputs hf h.2⟩
  | interface => exact ⟨hrefs h.1, FieldMap.Sound.outputs hf h.2⟩
  | union => exact hrefs h
  | inputObject => exact FieldMap.Sound.inputs hf h

end Map

end Sound

/-! ## Sound field maps -/

namespace FieldMap

variable {α : Type} {Q : α → Prop}

theorem sound_nil : Sound Q ([] : FieldMap α) := nofun

theorem sound_cons {entry : String × α} {fields : FieldMap α} :
    Sound Q (entry :: fields) ↔ (isName entry.1.toList = true ∧ Q entry.2) ∧ Sound Q fields :=
  List.forall_mem_cons

theorem sound_append {fields fields' : FieldMap α} :
    Sound Q (fields ++ fields') ↔ Sound Q fields ∧ Sound Q fields' :=
  List.forall_mem_append

theorem Sound.ofEntries {entries : List (String × α)} (h : Sound Q entries) :
    Sound Q (FieldMap.ofEntries entries) :=
  fun entry hentry => h entry (mem_of_mem_ofEntries hentry)

theorem Sound.insert {fields : FieldMap α} (h : Sound Q fields) {key : String} {value : α}
    (hkey : isName key.toList = true) (hvalue : Q value) : Sound Q (fields.insert key value) := by
  intro entry hentry
  rcases mem_of_mem_insert hentry with rfl | hentry
  · exact ⟨hkey, hvalue⟩
  · exact h entry hentry

/-- Every field of merged maps comes from one of them. -/
theorem sound_merge {maps : List (Option (FieldMap α))} (h : ∀ map, some map ∈ maps → Sound Q map) :
    Sound Q (merge maps) := by
  intro entry hentry
  obtain ⟨map, hmap, hmem⟩ := mem_of_mem_merge hentry
  exact h map hmap entry hmem

theorem sound_flatten {blocks : List (FieldMap α)} (h : ∀ block ∈ blocks, Sound Q block) :
    Sound Q blocks.flatten := by
  intro entry hentry
  obtain ⟨block, hblock, hmem⟩ := List.mem_flatten.mp hentry
  exact h block hblock entry hmem

end FieldMap

/-! ## Computations that fail on taken names only -/

namespace Generate

open MonadExcept (ofExcept)

/-- The error behind reports of fields that cannot be resolved. -/
def Error.cause : Error → Error
  | .unresolvedFields _ cause => cause.cause
  | e => e

/-- An error that says that a type of the datamodel is called like a type by which schemas describe
themselves. -/
def Error.IsTakenName (g : TypeGraph) (e : Error) : Prop :=
  ∃ t ∈ g.types, t.name ∈ introspectionNames ∧ e.cause = .badTypeName (.reserved t.name)

/-- A computation gives a result with a property unless a name is taken. -/
def Yields (g : TypeGraph) {α : Type} (P : α → Prop) : Except Error α → Prop
  | .ok a => P a
  | .error e => e.IsTakenName g

section Yields

variable {g : TypeGraph} {α β : Type} {P : α → Prop} {Q : β → Prop} {x : Except Error α}

theorem yields_ok {a : α} (h : P a) : Yields g P (.ok a) := h

theorem yields_of_eq {a : α} (hx : x = .ok a) (h : P a) : Yields g P x := by
  rw [hx]
  exact h

/-- A computation that goes on after a result can be stopped in either of its parts. -/
theorem Yields.bind {f : α → Except Error β} (hx : Yields g P x)
    (hf : ∀ a, P a → Yields g Q (f a)) : Yields g Q (x >>= f) := by
  cases x with
  | ok a => exact hf a hx
  | error e => exact hx

theorem Yields.mono {P' : α → Prop} (hx : Yields g P x) (h : ∀ a, P a → P' a) : Yields g P' x := by
  cases x with
  | ok a => exact h a hx
  | error e => exact hx

/-- A list of results has the property item by item, and one item can stop it all. -/
theorem Yields.mapM {f : α → Except Error β} {l : List α} (h : ∀ a ∈ l, Yields g Q (f a)) :
    Yields g (fun bs => ∀ b ∈ bs, Q b) (l.mapM f) := by
  induction l with
  | nil => exact yields_ok nofun
  | cons a l ih =>
    rw [List.mapM_cons]
    refine (h a List.mem_cons_self).bind fun b hb => ?_
    refine (ih fun a ha => h a (List.mem_cons_of_mem _ ha)).bind fun bs hbs => ?_
    exact yields_ok (List.forall_mem_cons.mpr ⟨hb, hbs⟩)

theorem Yields.ofExcept (hx : Yields g P x) : Yields g P (MonadExcept.ofExcept x) := by
  rw [ofExcept_eq]
  exact hx

/-- A report that fields cannot be resolved has the cause of what it reports. -/
theorem Yields.resolving (r : Request) (hx : Yields g P x) : Yields g P (resolving r x) := by
  cases x with
  | ok a => exact hx
  | error e => exact hx

/-- The names of sound fields pass the check of names. -/
theorem checkFieldNames_eq_ok {fields : FieldMap α} (h : fields.Sound P) :
    checkFieldNames fields = .ok fields := by
  have hfault : fields.keys.findSome? nameFault? = none := by
    rw [List.findSome?_eq_none_iff]
    intro key hkey
    obtain ⟨entry, hentry, rfl⟩ := List.mem_map.mp hkey
    exact (nameFault?_eq_none_iff _).mpr (h entry hentry).1
  rw [checkFieldNames, hfault]

theorem yields_checkFieldNames {fields : FieldMap α} (h : fields.Sound P) :
    Yields g (FieldMap.Sound P) (checkFieldNames fields) :=
  yields_of_eq (checkFieldNames_eq_ok h) h

/-- Without taken names there is a result. -/
theorem Yields.exists_eq_ok (hx : Yields g P x) (h : ∀ t ∈ g.types, t.name ∉ introspectionNames) :
    ∃ a, x = .ok a ∧ P a := by
  cases x with
  | ok a => exact ⟨a, rfl, hx⟩
  | error e =>
    obtain ⟨t, ht, hname, _⟩ := hx
    exact absurd hname (h t ht)

end Yields

end Generate

end OpenCrud
