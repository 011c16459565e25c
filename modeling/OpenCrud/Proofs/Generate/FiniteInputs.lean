import OpenCrud.Proofs.Generate.InputParts
import OpenCrud.Proofs.Generate.ObjectFields
import OpenCrud.Proofs.Schema.InputValue

/-!
# Inputs have values

Types of the datamodel may require each other in circles, and their inputs refer to each other all the more. Still
no input of a schema demands itself, since what an input demands is of a smaller height: so each input has a value.
Main result: `finiteInputs_of_parse`.
-/

namespace OpenCrud.Generate

open Datamodel

/-! ## Inputs of a schema -/

/-- A type of a schema with the handle that it is made from. -/
structure Makes (g : TypeGraph) (x : Handle) (t : NamedType String) : Prop where
  reached : x.ReachedFrom g (schemaRoots g)
  define : ∃ d, define g (fresh g) x = .ok d ∧ d.map Handle.name = t

theorem isInputObject_map {ρ σ : Type} (f : ρ → σ) (b : TypeBody ρ) :
    (b.map f).isInputObject = b.isInputObject := by
  cases b <;> rfl

/-- Only requests for inputs are answered with input objects. -/
theorem isInput_of_define {g : TypeGraph} {ask : Ask (Except Error)} {r : Request} {d : NamedType Handle}
    (hd : define g ask (.made r) = .ok d) (hinput : d.body.isInputObject = true) : r.kind.isInput = true := by
  have hkind : ∀ k : Kind, k.category = .inputObject → k.isInput = true := by
    intro k hk
    cases k <;> first | rfl | cases hk
  refine hkind _ ((category_of_define hd).symm.trans ?_)
  unfold Client.Category.of
  cases hbody : d.body with
  | inputObject => rfl
  | _ =>
    rw [hbody] at hinput
    cases hinput

/-- An input that a schema can hold belongs to a type with fields. -/
theorem exists_subject {g : TypeGraph} {r : Request} (hr : Handle.Valid g (.made r))
    (hk : r.kind.isInput = true) : ∃ t ∈ g.types, t.isEnum = false ∧ r.subject = t.name := by
  cases hr with
  | shared hshared => exact absurd (hshared.symm.trans (Kind.isShared_of_isInput hk)) Bool.noConfusion
  | enum _ _ => cases hk
  | object ht henum => exact ⟨_, ht, henum, rfl⟩
  | aggregate _ _ => cases hk
  | helper ht henum _ _ _ => exact ⟨_, ht, henum, rfl⟩

section Inputs

variable {g : TypeGraph} (h : WellFormed g.types) {s : Schema} (hs : Assembled g s)

include h hs

omit h in
theorem exists_makes {t : NamedType String} (ht : t ∈ s.types) : ∃ x, Makes g x t := by
  obtain ⟨x, hx, d, hd, hmap⟩ := (hs.types t).mp ht
  exact ⟨x, hx, d, hd, hmap⟩

/-- A type of a schema has one handle, as far as its name tells. -/
theorem makes_of_name_eq {t : NamedType String} (ht : t ∈ s.types) {x : Handle}
    (hx : x.ReachedFrom g (schemaRoots g)) (hname : x.name = t.name) : Makes g x t := by
  obtain ⟨y, hy, d', hd', rfl⟩ := (hs.types t).mp ht
  obtain ⟨d, hd, _⟩ := hs.exists_define h hx
  obtain ⟨_, hd'', hname', _⟩ := hs.exists_define h hy
  obtain rfl := Except.ok.inj (hd'.symm.trans hd'')
  have hsame : x.name = y.name := hname.trans hname'
  have hfind := hs.find? x hx d hd
  rw [hsame, hs.find? y hy d' hd'] at hfind
  exact ⟨hx, d, hd, (Option.some.inj hfind).symm⟩

/-- What an input is made of: parts of its height, each of which is reached. -/
theorem exists_parts {r : Request} (hr : Handle.ReachedFrom g (schemaRoots g) (.made r))
    (hk : r.kind.isInput = true) :
    ∃ t ∈ g.types, r.subject = t.name ∧ ∃ fields d, define g (fresh g) (.made r) = .ok d ∧
      d.name = r.typeName ∧ d.body = .inputObject fields ∧ InputParts g t r.kind.height fields := by
  have hvalid := valid_of_reachedFrom h valid_schemaRoots hr
  obtain ⟨t, ht, henum, hsubject⟩ := exists_subject hvalid hk
  obtain ⟨d, hd, _⟩ := hs.exists_define h hr
  obtain ⟨fields, hfields, rfl⟩ := (define_input_eq_ok_iff h ht henum hk hsubject).mp hd
  exact ⟨t, ht, hsubject, fields, _, hd, rfl, rfl, gives_inputParts h ht r fields hfields⟩

/-! ## Demands -/

/-- What an input demands is of a smaller height. -/
theorem height_lt_of_demands {t u : NamedType String} (hdemands : s.Demands t u) {x : Handle}
    (hx : Makes g x t) : ∃ y, Makes g y u ∧ y.height < x.height := by
  obtain ⟨hreached, d, hd, rfl⟩ := hx
  obtain ⟨entry, hentry, htype⟩ := hdemands.field
  have hinput : d.body.isInputObject = true := by
    rw [← isInputObject_map Handle.name]
    cases hbody : d.body.map Handle.name with
    | inputObject fields isOneOf => rfl
    | _ =>
      rw [NamedType.map, hbody] at hentry
      cases hentry
  have hvalid := valid_of_reachedFrom h valid_schemaRoots hreached
  cases x with
  | scalar scalar =>
    cases hd
    cases hinput
  | absent => cases hvalid
  | made r =>
    have hk := isInput_of_define hd hinput
    obtain ⟨t, ht, _, fields, d', hd', _, hbody, hparts⟩ := exists_parts h hs hreached hk
    obtain rfl := Except.ok.inj (hd.symm.trans hd')
    rw [NamedType.map, hbody] at hentry
    obtain ⟨field, hfield, rfl⟩ := List.mem_map.mp hentry
    have htype' : field.2.type.map Handle.name = .nonNull (.named u.name) := htype
    have hnull : field.2.type.isNonNull = true := by
      rw [← TypeExpr.isNonNull_map Handle.name, htype']
      rfl
    -- A list can be empty, so only a single input that must be given has to be lower.
    rcases (hparts.part field hfield).low hnull with ⟨item, hitem⟩ | ⟨y, hy, hlow⟩
    · rw [hitem] at htype'
      cases htype'
    · rw [hy] at htype'
      have href : y ∈ d.body.refs := by
        rw [hbody]
        exact List.mem_map.mpr ⟨field, hfield, by rw [hy]; rfl⟩
      have hname : y.name = u.name := TypeExpr.named.inj (TypeExpr.nonNull.inj htype')
      exact ⟨y, makes_of_name_eq h hs hdemands.mem' (.ref hreached hd href) hname, hlow⟩

theorem height_lt_of_transGen {t u : NamedType String} (hdemands : Relation.TransGen s.Demands t u)
    {x : Handle} (hx : Makes g x t) : ∃ y, Makes g y u ∧ y.height < x.height := by
  induction hdemands with
  | single hstep => exact height_lt_of_demands h hs hstep hx
  | tail _ hstep ih =>
    obtain ⟨y, hy, hlow⟩ := ih
    obtain ⟨z, hz, hlow'⟩ := height_lt_of_demands h hs hstep hy
    exact ⟨z, hz, hlow'.trans hlow⟩

theorem not_transGen_self (t : NamedType String) : ¬Relation.TransGen s.Demands t t := by
  intro hcircle
  -- Around the circle the height goes down without an end.
  have hnever : ∀ n, ∀ x : Handle, x.height = n → ¬Makes g x t := by
    intro n
    induction n using Nat.strong_induction_on with
    | _ n ih =>
      rintro x rfl hx
      obtain ⟨y, hy, hlow⟩ := height_lt_of_transGen h hs hcircle hx
      exact ih y.height hlow y rfl hy
  have hmem : t ∈ s.types := by
    obtain ⟨_, hstep, _⟩ := Relation.TransGen.head'_iff.mp hcircle
    exact hstep.mem
  obtain ⟨x, hx⟩ := exists_makes hs hmem
  exact hnever _ x rfl hx

/-! ## Values -/

omit h in
theorem exists_takes_scalar {scalar : Scalar} (hx : Handle.ReachedFrom g (schemaRoots g) (.scalar scalar)) :
    ∃ v, v ≠ .null ∧ s.Takes (.named scalar.name) v := by
  obtain ⟨v, hv, htakes⟩ := scalar.exists_takes
  exact ⟨v, hv, .scalar ((hs.types _).mpr ⟨_, hx, _, rfl, rfl⟩) htakes⟩

theorem exists_takes_enum {u : ModelType} (hu : u ∈ g.types) (henum : u.isEnum = true)
    (hx : Handle.ReachedFrom g (schemaRoots g) (.made (.of .enum u.name))) :
    ∃ v, v ≠ .null ∧ s.Takes (.named u.name) v := by
  obtain ⟨value, hvalue⟩ := List.exists_mem_of_ne_nil _ ((h.type u hu).values_ne_nil henum)
  have hmem := (hs.types _).mpr ⟨_, hx, _, define_enum h hu, rfl⟩
  refine ⟨.text value, nofun, .enum hmem rfl ?_⟩
  rw [FieldMap.ofEntries_map_const, FieldMap.keys, List.map_map]
  exact List.mem_map.mpr ⟨value, List.mem_eraseDups.mpr hvalue, rfl⟩

/-- Whatever an input mentions has a value, if the inputs of a smaller height have one. -/
theorem exists_takes_of_mentions {t : ModelType} {x : Handle} (hmentions : Mentions g t x)
    (hx : x.ReachedFrom g (schemaRoots g))
    (hlower : ∀ r, x = .made r → r.kind.isInput = true → ∃ entries, s.Takes (.named r.typeName) (.object entries)) :
    ∃ v, v ≠ .null ∧ s.Takes (.named x.name) v := by
  have hinput : ∀ r, x = .made r → r.kind.isInput = true → ∃ v, v ≠ .null ∧ s.Takes (.named x.name) v := by
    rintro r rfl hk
    obtain ⟨entries, hentries⟩ := hlower r rfl hk
    exact ⟨.object entries, nofun, hentries⟩
  cases hmentions with
  | absent => cases valid_of_reachedFrom h valid_schemaRoots hx
  | flag => exact exists_takes_scalar hs hx
  | leaf _ hleaf =>
    obtain ⟨scalar, _, rfl⟩ | ⟨u, hu, henum, _, rfl⟩ := hleaf
    · exact exists_takes_scalar hs hx
    · exact exists_takes_enum h hs hu henum hx
  | own hk _ => exact hinput _ rfl hk
  | related _ hk _ => exact hinput _ rfl hk

/-- Every input has a value: induction on its height. -/
theorem exists_takes_input (n : Nat) : ∀ r : Request, r.kind.height = n →
    Handle.ReachedFrom g (schemaRoots g) (.made r) → r.kind.isInput = true →
      ∃ entries, s.Takes (.named r.typeName) (.object entries) := by
  induction n using Nat.strong_induction_on with
  | _ n ih =>
    rintro r rfl hr hk
    obtain ⟨t, ht, _, fields, d, hd, hname, hbody, hparts⟩ := exists_parts h hs hr hk
    have hmem : d.map Handle.name ∈ s.types := (hs.types _).mpr ⟨_, hr, d, hd, rfl⟩
    have hbody' : (d.map Handle.name).body =
        .inputObject (fields.map fun entry => (entry.1, entry.2.map Handle.name)) := by
      rw [NamedType.map, hbody]
      rfl
    have hkeys : ((fields.map fun entry => (entry.1, entry.2.map Handle.name)).map Prod.fst).Nodup := by
      rw [List.map_map]
      exact hparts.nodup
    rw [← hname]
    refine Schema.exists_takes_object hmem hbody' hkeys (List.forall_mem_map.mpr fun entry hentry hnull => ?_)
    obtain ⟨hmentions, hlow⟩ := hparts.part entry hentry
    show ∃ v, s.Takes (entry.2.type.map Handle.name) v
    -- What must be given is a list, which may be empty, or has a value by induction.
    rcases hlow ((TypeExpr.isNonNull_map Handle.name entry.2.type).symm.trans hnull) with
      ⟨item, hitem⟩ | ⟨x, hx, hlow⟩
    · rw [hitem]
      exact ⟨.list [], Schema.takes_nonNull_list _⟩
    · rw [hx] at hmentions ⊢
      have href : x ∈ d.body.refs := by
        rw [hbody]
        exact List.mem_map.mpr ⟨entry, hentry, by rw [hx]; rfl⟩
      have hreached : x.ReachedFrom g (schemaRoots g) := .ref hr hd href
      obtain ⟨v, hv, htakes⟩ := exists_takes_of_mentions h hs hmentions hreached fun r' hr' hk' =>
        ih r'.kind.height (by subst hr'; exact hlow) r' rfl (hr' ▸ hreached) hk'
      exact ⟨v, .nonNull hv htakes⟩

end Inputs

/-! ## Main result -/

/-- In the schema of an accepted datamodel no input demands itself, and every input has a value. -/
theorem finiteInputs_of_parse {database : Database} {source : List Char} {types : List ModelType}
    (hparse : parse database source = .ok types) {s : Schema} (hschema : schema (.ofTypes types) = .ok s) :
    s.FiniteInputs := by
  have hwf := (wellFormed_of_parse hparse).ofTypes
  rw [schema_eq_assemble] at hschema
  have hassembled := assembled_of_eq_ok hwf hschema
  refine ⟨not_transGen_self hwf hassembled, fun t ht hinput => ?_⟩
  obtain ⟨x, hreached, d, hd, rfl⟩ := exists_makes hassembled ht
  rw [show (d.map Handle.name).body = d.body.map Handle.name from rfl, isInputObject_map] at hinput
  cases x with
  | scalar scalar =>
    cases hd
    cases hinput
  | absent => cases valid_of_reachedFrom hwf valid_schemaRoots hreached
  | made r =>
    obtain ⟨_, hd', hname, _⟩ := hassembled.exists_define hwf hreached
    obtain rfl := Except.ok.inj (hd.symm.trans hd')
    have hvalue := exists_takes_input hwf hassembled _ r rfl hreached (isInput_of_define hd hinput)
    rwa [show (d.map Handle.name).name = r.typeName from hname]

/-- Two models that require each other. -/
def mutualSource : List Char :=
  "type A { id: ID! b: B! name: String } type B { id: ID! a: A! as: [A!]! }".toList

theorem finiteInputs_mutual : ∃ types s, parse .relational mutualSource = .ok types ∧
    schema (.ofTypes types) = .ok s ∧ s.FiniteInputs := by
  obtain ⟨types, s, hparse, hs⟩ : ∃ types s, parse .relational mutualSource = .ok types ∧
      schema (.ofTypes types) = .ok s :=
    exists_schema_of_isOk (by decide +kernel)
  exact ⟨types, s, hparse, hs, finiteInputs_of_parse hparse hs⟩

end OpenCrud.Generate
