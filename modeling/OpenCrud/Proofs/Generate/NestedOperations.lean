import OpenCrud.Proofs.Generate.EmptyInputs
import OpenCrud.Proofs.Generate.QueryFields

/-!
# What nested inputs offer

An input for related items offers operations on them: some are offered where the type has a field to write, some
where it has a field that selects an item, and some not for embedded items or required relations. All conditions are
put down in one table (`nestedOffers`). Main result: at any time of a run an input for related items offers just what
the table says, and there is no such input where this is nothing (`nestedOperations_of_parse`).
-/

namespace OpenCrud.Generate

open Datamodel

/-! ## Offers -/

/-- An operation on related items: whether it is offered, and the type of what it takes. -/
structure Offer where
  name : String
  isOffered : Bool
  takes : Handle

/-- The kinds of inputs for related items. -/
def Kind.isNested : Kind → Bool
  | .createOne | .createMany | .updateOne | .updateMany => true
  | _ => false

/-- The operations on related items of a type, for each kind of input and for required and optional relations.

What is written has to have a field to write, and what is selected one that selects it. Embedded items belong to
one item, so they are neither connected nor disconnected; the item of a required relation is neither deleted nor
disconnected. -/
def nestedOffers (g : TypeGraph) (t : ModelType) (required : Bool) : Kind → List Offer
  | .createOne | .createMany =>
    [⟨"create", isWritable t, .made (.of .create t.name)⟩,
     ⟨"connect", !t.isEmbedded && hasUniqueLeaf g t, .made (.of .whereUnique t.name)⟩]
  | .updateOne =>
    [⟨"create", isWritable t, .made (.of .create t.name)⟩,
     ⟨"update", isWritable t, .made ⟨.update, t.name, .isNested⟩⟩,
     ⟨"upsert", isWritable t, .made (.of .upsertNested t.name)⟩,
     ⟨"delete", !required, .scalar .boolean⟩,
     ⟨"disconnect", !required && !t.isEmbedded, .scalar .boolean⟩,
     ⟨"connect", !t.isEmbedded && hasUniqueLeaf g t, .made (.of .whereUnique t.name)⟩]
  | .updateMany =>
    [⟨"create", isWritable t, .made (.of .create t.name)⟩,
     ⟨"update", hasUniqueLeaf g t && isWritable t, .made (.of .updateWithWhereUnique t.name)⟩,
     ⟨"delete", hasUniqueLeaf g t, .made (.of .whereUnique t.name)⟩,
     ⟨"connect", !t.isEmbedded && hasUniqueLeaf g t, .made (.of .whereUnique t.name)⟩,
     ⟨"disconnect", !t.isEmbedded && hasUniqueLeaf g t, .made (.of .whereUnique t.name)⟩]
  | _ => []

/-- How an input takes what its operations take: as a list where there are many related items. -/
def nestedType : Kind → Handle → TypeExpr Handle
  | .createMany | .updateMany => fun h => .list (.nonNull (.named h))
  | _ => .named

/-- The fields of an input for related items. -/
def nestedFields (g : TypeGraph) (t : ModelType) (r : Request) : FieldMap (InputField Handle) :=
  ((nestedOffers g t r.args.required r.kind).filter (·.isOffered)).map fun o =>
    (o.name, { type := nestedType r.kind o.takes })

/-! ## Candidates -/

/-- An operation as a candidate: with what it takes, if it is offered. -/
def Offer.candidate (o : Offer) : String × Option Handle := (o.name, if o.isOffered then some o.takes else none)

theorem offered_candidates (offers : List Offer) :
    offered (offers.map Offer.candidate) = (offers.filter (·.isOffered)).map fun o => (o.name, o.takes) := by
  induction offers with
  | nil => rfl
  | cons o offers ih =>
    rw [offered] at ih ⊢
    cases hoffered : o.isOffered with
    | true => simp [Offer.candidate, hoffered, ih]
    | false => simp [Offer.candidate, hoffered, ih]

theorem operationFields_offered (modify : TypeExpr Handle → TypeExpr Handle) (offers : List Offer) :
    operationFields modify (offered (offers.map Offer.candidate)) =
      (offers.filter (·.isOffered)).map fun o => (o.name, { type := modify (.named o.takes) }) := by
  rw [offered_candidates, operationFields, List.map_map]
  rfl

/-! ## Fields of the inputs -/

section Fields

variable {g : TypeGraph} (h : WellFormed g.types) {t : ModelType} (ht : t ∈ g.types)

include h ht

theorem createOperations_offers (required : Bool) :
    createOperations (fresh g) t = .ok (offered ((nestedOffers g t required .createOne).map Offer.candidate)) := by
  rw [createOperations_fresh h ht, nestedOffers, hasUniqueLeaf_eq h ht]
  rfl

theorem updateOneOperations_offers (required : Bool) :
    updateOneOperations (fresh g) t required =
      .ok (offered ((nestedOffers g t required .updateOne).map Offer.candidate)) := by
  rw [updateOneOperations_fresh h ht, nestedOffers, hasUniqueLeaf_eq h ht]
  rfl

theorem updateManyOperations_offers (required : Bool) :
    updateManyOperations (fresh g) t = .ok (offered ((nestedOffers g t required .updateMany).map Offer.candidate)) := by
  rw [updateManyOperations_fresh h ht, nestedOffers, hasUniqueLeaf_eq h ht]
  rfl

theorem inputFields_nested {r : Request} (hk : r.kind.isNested = true) :
    inputFields g (fresh g) r t = .ok (nestedFields g t r) := by
  have hcreate := createOperations_offers h ht r.args.required
  unfold inputFields nestedFields
  cases hkind : r.kind with
  | createOne =>
    simp only [hcreate, ok_bind]
    exact congrArg Except.ok (operationFields_offered id _)
  | createMany =>
    simp only [hcreate, ok_bind]
    exact congrArg Except.ok (operationFields_offered listOf _)
  | updateOne =>
    simp only [updateOneOperations_offers h ht, ok_bind]
    exact congrArg Except.ok (operationFields_offered id _)
  | updateMany =>
    simp only [updateManyOperations_offers h ht r.args.required, ok_bind]
    exact congrArg Except.ok (operationFields_offered listOf _)
  | _ =>
    rw [hkind] at hk
    cases hk

/-- There is an input for related items where an operation is offered. -/
theorem offersInput_nested {k : Kind} (hk : k.isNested = true) (required : Bool) :
    offersInput g t required k = (nestedOffers g t required k).any (·.isOffered) := by
  unfold offersInput nestedOffers isConnectable
  rw [hasUniqueLeaf_eq h ht]
  cases k with
  | createOne | createMany => simp
  | updateOne =>
    cases required <;> cases isWritable t <;> simp
  | updateMany =>
    cases isSelectable t <;> cases isWritable t <;> simp
  | _ => cases hk

end Fields

/-! ## Main result -/

/-- At any time of a run, there is an input for items related to a type where an operation on them is offered; and
the fields of the input are the operations that are offered, each with the type of what it takes. -/
theorem nestedOperations_of_parse {database : Database} {source : List Char} {types : List ModelType}
    (h : parse database source = .ok types) {t : ModelType} (ht : t ∈ types) (henum : t.isEnum = false)
    {r : Request} (hk : r.kind.isNested = true) (hr : r.subject = t.name) (hargs : Args.Own r.args)
    {c : Cache} (hc : c.Reached (.ofTypes types)) :
    ((answer (.ofTypes types) r).run c).1 =
      .ok (if (nestedOffers (.ofTypes types) t r.args.required r.kind).any (·.isOffered) then some (.made r) else none) ∧
    ((define (.ofTypes types) (answer (.ofTypes types)) (.made r)).run c).1 =
      .ok { name := r.typeName, body := .inputObject (nestedFields (.ofTypes types) t r) } := by
  have hwf := (wellFormed_of_parse h).ofTypes
  have hmem : t ∈ (TypeGraph.ofTypes types).types := by
    rw [TypeGraph.types_ofTypes (wellFormed_of_parse h).nodup_names]
    exact ht
  have hkinds : r.kind.isInput = true ∧ description (.ofTypes types) r = none := by
    unfold description
    cases hkind : r.kind with
    | createOne | createMany | updateOne | updateMany => exact ⟨rfl, rfl⟩
    | _ =>
      rw [hkind] at hk
      cases hk
  obtain ⟨hinput, hdescription⟩ := hkinds
  constructor
  · rw [run_answer hc (proper_of_isInput hinput hargs), fresh_input hwf hmem hinput hr, offersInput_nested hwf hmem hk]
    rfl
  · rw [run_define hc]
    refine (define_input_eq_ok_iff hwf hmem henum hinput hr).mpr ⟨_, inputFields_nested hwf hmem hk, ?_⟩
    rw [hdescription]

/-- A place that belongs to one item, with nothing that selects it. -/
def embeddedPlace : ModelType where
  name := "Place"
  isEmbedded := true
  fields := [{ name := "street", typeName := "String" }]

/-- An item with a place. -/
def placed : ModelType where
  name := "House"
  fields := [{ name := "place", typeName := "Place" }]

/-- The place of an item can be created, changed and deleted, but not disconnected. -/
theorem nestedOperations_embedded :
    parse .document "type House { place: Place } type Place @embedded { street: String }".toList =
        .ok [placed, embeddedPlace] ∧
    embeddedPlace ∈ [placed, embeddedPlace] ∧ embeddedPlace.isEnum = false ∧ Kind.isNested .updateOne = true ∧
    Args.Own (.ofRequired false) ∧ Cache.Reached (.ofTypes [placed, embeddedPlace]) {} ∧
    ((answer (.ofTypes [placed, embeddedPlace]) ⟨.updateOne, "Place", .ofRequired false⟩).run {}).1 =
      .ok (some (.made ⟨.updateOne, "Place", .ofRequired false⟩)) ∧
    ((define (.ofTypes [placed, embeddedPlace]) (answer (.ofTypes [placed, embeddedPlace]))
        (.made ⟨.updateOne, "Place", .ofRequired false⟩)).run {}).1 = .ok {
      name := "PlaceUpdateOneInput"
      body := .inputObject [("create", { type := .named (.made (.of .create "Place")) }),
        ("update", { type := .named (.made ⟨.update, "Place", .isNested⟩) }),
        ("upsert", { type := .named (.made (.of .upsertNested "Place")) }),
        ("delete", { type := .named (.scalar .boolean) })] } := by
  have hparse : parse .document "type House { place: Place } type Place @embedded { street: String }".toList =
      .ok [placed, embeddedPlace] := rfl
  have hmem : embeddedPlace ∈ [placed, embeddedPlace] := List.mem_cons_of_mem _ List.mem_cons_self
  have hown : Args.Own (.ofRequired false) := Or.inr (Or.inr ⟨false, rfl⟩)
  obtain ⟨hanswer, hdefine⟩ := nestedOperations_of_parse hparse hmem rfl
    (r := ⟨.updateOne, "Place", .ofRequired false⟩) rfl rfl hown .start
  exact ⟨hparse, hmem, rfl, rfl, hown, .start, hanswer, hdefine⟩

end OpenCrud.Generate
