import OpenCrud.Generate.Assemble
import OpenCrud.Proofs.Datamodel.Graph

/-!
# Computations in two monads

The definitions of the generators are written for any monad in which requests are answered. This file relates
what they compute in two such monads: if requests are answered alike, so is everything that is built on
the answers.

A relation that every step keeps is a `Correspondence`. Every generator has one lemma below, and its proof
follows the steps of the definition.

## Scopes

A generator asks for a few types only. Its lemma says for which: it assumes that these requests belong to a set
`S` on which the two ways of asking correspond (`Within`). What the generators ask for about one type of
the datamodel is `Covers`, what they ask for about the target of a field is `Points`, and what working out an
answer asks for is `Supports`.

## Ranks

Answering a request asks for kinds of types of a lower rank only, so the lemmas about answers assume
something of the requests below a rank, and the lemmas about the parts of types of all requests.
-/

namespace OpenCrud.Generate

open MonadExcept (ofExcept)

/-! ## Requests of the generators -/

/-- How deep the answer to a request for a kind of type asks for other answers. -/
def Kind.rank : Kind → Nat
  | .scalar | .createOne | .createMany | .updateWithWhereUnique | .upsertNested => 1
  | .batchPayload | .updateOne | .updateMany => 2
  | _ => 0

/-- Answers ask for answers that ask for answers, and no further. -/
theorem Kind.rank_le (k : Kind) : k.rank ≤ 2 := by
  cases k <;> decide

/-- Whether a kind of type exists once per schema. -/
def Kind.isShared : Kind → Bool
  | .node | .pageInfo | .batchPayload | .query | .mutation => true
  | _ => false

/-- Whether a kind of type is made from a type of the datamodel with fields. -/
def Kind.isOfModel : Kind → Bool
  | .scalar | .enum | .node | .pageInfo | .batchPayload | .query | .mutation => false
  | _ => true

/--
Arguments that their texts tell apart, the generators' own among them.

What a run remembers is found again by the text of the arguments alone.
-/
structure Args.Distinct (A : Args → Prop) : Prop where
  none : A .none
  isNested : A .isNested
  ofRequired : ∀ required, A (.ofRequired required)
  eq_of_text : ∀ {a b : Args}, A a → A b → a.text = b.text → a = b

/-- A request with arguments of a given set, and with no subject where the kind of type takes none. -/
structure Request.Proper (A : Args → Prop) (r : Request) : Prop where
  args : A r.args
  subject_eq : r.kind.isShared = true → r.subject = ""

/-! ## Scopes -/

/-- All that the generators ask for about a type with fields belongs to a set. An update of one item is asked for
with its argument only. -/
structure Covers (S : Request → Prop) (name : String) : Prop where
  of : ∀ kind : Kind, kind.isOfModel = true → kind ≠ .updateOne → S (.of kind name)
  nestedUpdate : S ⟨.update, name, .isNested⟩
  updateOne : ∀ required, S ⟨.updateOne, name, .ofRequired required⟩

/-- All that the generators ask for about the target of a field belongs to a set. -/
structure Points (S : Request → Prop) (g : TypeGraph) (f : ModelField) : Prop where
  leaf : isLeafField g f = .ok true → S (.of .scalar f.typeName)
  relation : ∀ t, target g f = .ok (.relation t) → Covers S t.name

/-- All that the generators ask for while a request is answered, or its answer is worked out, belongs to a set. -/
structure Supports (S : Request → Prop) (g : TypeGraph) (r : Request) : Prop where
  shared : ∀ kind : Kind, kind.isShared = true → S (.shared kind)
  long : S (.of .scalar Scalar.long.name)
  enum : r.kind = .scalar → ∀ t, g.find? r.subject = some t → t.isEnum = true → S (.of .enum t.name)
  self : r.kind.isOfModel = true → Covers S r.subject
  fields : r.kind.isOfModel = true → ∀ t, g.find? r.subject = some t → ∀ f ∈ t.fields, Points S g f
  models : ∀ t ∈ g.models, Covers S t.name

section Proper

variable {A : Args → Prop} (hA : Args.Distinct A)

include hA

/-- A kind of type that takes a subject is asked for properly with any subject and no arguments. -/
theorem proper_of {kind : Kind} (hk : kind.isShared = false) (subject : String) :
    Request.Proper A (.of kind subject) :=
  ⟨hA.none, fun h => absurd (hk.symm.trans h) Bool.false_ne_true⟩

/-- What exists once per schema is asked for without a subject. -/
theorem proper_shared (kind : Kind) : Request.Proper A (.shared kind) := ⟨hA.none, fun _ => rfl⟩

/-- Whatever the generators ask for about a type with fields, they ask for properly. -/
theorem covers_proper (name : String) : Covers (Request.Proper A) name where
  of kind hk _ := proper_of hA (by cases kind <;> first | rfl | cases hk) name
  nestedUpdate := ⟨hA.isNested, nofun⟩
  updateOne required := ⟨hA.ofRequired required, nofun⟩

theorem points_proper (g : TypeGraph) (f : ModelField) : Points (Request.Proper A) g f where
  leaf _ := proper_of hA rfl f.typeName
  relation t _ := covers_proper hA t.name

/-- Answering a proper request, and working out its answer, asks properly only. -/
theorem supports_proper (g : TypeGraph) (r : Request) : Supports (Request.Proper A) g r where
  shared kind _ := proper_shared hA kind
  long := proper_of hA rfl _
  enum _ t _ _ := proper_of hA rfl t.name
  self _ := covers_proper hA r.subject
  fields _ _ _ f _ := points_proper hA g f
  models t _ := covers_proper hA t.name

end Proper

/-! ## Relations between two monads -/

/-- A relation between the computations of two monads that every step of a computation keeps. The generators
handle an error only to report it as another one. -/
structure Correspondence (m n : Type → Type) [Monad m] [Monad n] [LawfulMonad m] [LawfulMonad n]
    [MonadExceptOf Error m] [MonadExceptOf Error n] where
  Holds : {α : Type} → m α → n α → Prop
  pure : ∀ {α : Type} (a : α), Holds (Pure.pure a) (Pure.pure a)
  bind : ∀ {α β : Type} {x : m α} {y : n α} {f : α → m β} {f' : α → n β},
    Holds x y → (∀ a, Holds (f a) (f' a)) → Holds (x >>= f) (y >>= f')
  abort : ∀ {α β : Type} (e : Error) (f : α → m β) (f' : α → n β),
    Holds (MonadExcept.throw e >>= f) (MonadExcept.throw e >>= f')
  rethrow : ∀ {α : Type} {x : m α} {y : n α} (f : Error → Error), Holds x y →
    Holds (MonadExcept.tryCatch x fun e => MonadExcept.throw (f e))
      (MonadExcept.tryCatch y fun e => MonadExcept.throw (f e))

namespace Correspondence

variable {m n : Type → Type} [Monad m] [Monad n] [LawfulMonad m] [LawfulMonad n]
  [MonadExceptOf Error m] [MonadExceptOf Error n]

/-- Two ways of asking correspond on a set of requests, as far as they are for kinds of types below a rank. -/
structure Within (R : Correspondence m n) (S : Request → Prop) (rank : Nat) (ask : Ask m)
    (ask' : Ask n) : Prop where
  holds : ∀ r : Request, S r → r.kind.rank < rank → R.Holds (ask r) (ask' r)

/-- Two ways of asking correspond on the proper requests for kinds of types below a rank. -/
structure Asks (R : Correspondence m n) (A : Args → Prop) (rank : Nat) (ask : Ask m)
    (ask' : Ask n) : Prop where
  distinct : Args.Distinct A
  holds : ∀ r : Request, r.Proper A → r.kind.rank < rank → R.Holds (ask r) (ask' r)

variable {R : Correspondence m n} {S : Request → Prop} {rank : Nat} {ask : Ask m} {ask' : Ask n}

theorem throw {α : Type} (e : Error) :
    R.Holds (MonadExcept.throw (α := α) e : m α) (MonadExcept.throw e : n α) := by
  rw [← bind_pure (MonadExcept.throw e : m α), ← bind_pure (MonadExcept.throw e : n α)]
  exact R.abort e _ _

/-- A computation that asks for nothing has one result, or one error, in both monads. -/
theorem holds_ofExcept {α : Type} (x : Except Error α) :
    R.Holds (ofExcept x : m α) (ofExcept x : n α) := by
  cases x with
  | ok a => exact R.pure a
  | error e => exact R.throw e

/-- What comes next is only to be related for the result that there is. -/
theorem holds_bind_ofExcept {α β : Type} {x : Except Error α} {f : α → m β} {f' : α → n β}
    (h : ∀ a, x = .ok a → R.Holds (f a) (f' a)) : R.Holds (ofExcept x >>= f) (ofExcept x >>= f') := by
  cases x with
  | ok a =>
    have hm : (ofExcept (.ok a) >>= f : m β) = f a := pure_bind a f
    have hn : (ofExcept (.ok a) >>= f' : n β) = f' a := pure_bind a f'
    rw [hm, hn]
    exact h a rfl
  | error e => exact R.abort e f f'

/-- Going through a list keeps a relation that every item keeps. -/
theorem holds_mapM {α β : Type} {f : α → m β} {f' : α → n β} (l : List α)
    (h : ∀ a ∈ l, R.Holds (f a) (f' a)) : R.Holds (l.mapM f) (l.mapM f') := by
  induction l with
  | nil => exact R.pure []
  | cons a l ih =>
    rw [List.mapM_cons, List.mapM_cons]
    refine R.bind (h a List.mem_cons_self) fun b => ?_
    refine R.bind (ih fun a ha => h a (List.mem_cons_of_mem _ ha)) fun bs => ?_
    exact R.pure _

/-- Where two answers correspond, so do the types they stand for, an absent one among them. -/
theorem holds_type {r : Request} (h : R.Holds (ask r) (ask' r)) :
    R.Holds (ask.type r) (ask'.type r) := by
  unfold Ask.type
  exact R.bind h fun _ => R.pure _

/-- A problem is reported as one of the type that is worked out, in both monads alike. -/
theorem holds_resolving {α : Type} (r : Request) {x : m α} {y : n α} (h : R.Holds x y) :
    R.Holds (resolving r x) (resolving r y) := by
  unfold resolving
  exact R.rethrow _ h

namespace Within

/-- Ways of asking that correspond below a rank do so below a lower one. -/
theorem mono {rank' : Nat} (h : R.Within S rank ask ask') (hr : rank' ≤ rank) :
    R.Within S rank' ask ask' :=
  ⟨fun r hs hk => h.holds r hs (Nat.lt_of_lt_of_le hk hr)⟩

/-- No kind of type has a rank above two. -/
theorem request (h : R.Within S 3 ask ask') {r : Request} (hr : S r) : R.Holds (ask r) (ask' r) :=
  h.holds r hr (Nat.lt_succ_of_le r.kind.rank_le)

/-- Asking for a kind of type about a type with fields. -/
theorem about (h : R.Within S rank ask ask') {name : String} (hname : Covers S name) (kind : Kind)
    (hk : kind.rank < rank) (hmodel : kind.isOfModel = true) (hne : kind ≠ .updateOne) :
    R.Holds (ask (.of kind name)) (ask' (.of kind name)) :=
  h.holds _ (hname.of kind hmodel hne) hk

/-! ## Scalars and enums -/

section Leaves

variable (h : R.Within S 3 ask ask') {f : ModelField} (hf : S (.of .scalar f.typeName))

include h hf

/-- All that is built for a field of a scalar or an enum starts from the one type it points at. -/
theorem leafType : R.Holds (leafType ask f) (leafType ask' f) := by
  unfold Generate.leafType
  exact R.bind (holds_type (h.request hf)) fun _ => R.pure _

theorem optionalType : R.Holds (optionalType ask f) (optionalType ask' f) := by
  unfold Generate.optionalType
  exact R.bind (h.leafType hf) fun _ => R.pure _

theorem outputType : R.Holds (outputType ask f) (outputType ask' f) := by
  unfold Generate.outputType
  exact R.bind (h.optionalType hf) fun _ => R.pure _

theorem inputType : R.Holds (inputType ask f) (inputType ask' f) := by
  unfold Generate.inputType
  exact R.bind (h.optionalType hf) fun _ => R.pure _

theorem optionalField : R.Holds (optionalField ask f) (optionalField ask' f) := by
  unfold Generate.optionalField
  exact R.bind (h.optionalType hf) fun _ => R.pure _

theorem familyFilters (family : FilterFamily) :
    R.Holds (familyFilters ask family f) (familyFilters ask' family f) := by
  unfold Generate.familyFilters
  exact R.bind (h.leafType hf) fun _ => R.pure _

/-- Filters of one field, family after family. -/
theorem familiesFilters (families : List FilterFamily) :
    R.Holds (familiesFilters ask families f) (familiesFilters ask' families f) := by
  unfold Generate.familiesFilters
  refine R.bind (holds_mapM families fun family _ => ?_) fun _ => R.pure _
  exact h.familyFilters hf family

end Leaves

end Within

/-- The test for a scalar or an enum agrees with what the field points at. -/
theorem isLeafField_of_target {g : TypeGraph} {f : ModelField} {t : Target} (h : target g f = .ok t) :
    isLeafField g f = .ok t.isLeaf := by
  rw [isLeafField, h]
  rfl

/-- A field that is no scalar and no enum points at a type of the datamodel, which it is related to. -/
theorem target_of_isLeafField {g : TypeGraph} {f : ModelField} (h : isLeafField g f = .ok false) :
    ∃ t, g.relatedType? f = some t ∧ target g f = .ok (.relation t) := by
  unfold isLeafField target at h
  cases hrelated : g.relatedType? f with
  | none =>
    rw [hrelated] at h
    dsimp only at h
    split at h
    · cases h
    · cases h
  | some t =>
    refine ⟨t, rfl, ?_⟩
    rw [hrelated] at h
    dsimp only at h
    rw [target, hrelated]
    dsimp only
    split
    · rename_i henum
      rw [if_pos henum] at h
      cases h
    · rfl

/-- The fields picked as scalars and enums are fields of the list that pass the test. -/
theorem isLeafField_of_mem_leafFields {g : TypeGraph} {fs : List ModelField} {leaves : List ModelField}
    (h : leafFields g fs = .ok leaves) : ∀ f ∈ leaves, f ∈ fs ∧ isLeafField g f = .ok true := by
  induction fs generalizing leaves with
  | nil =>
    cases h
    exact nofun
  | cons f fs ih =>
    rw [leafFields, bind_eq_ok_iff] at h
    obtain ⟨isLeaf, hleaf, h⟩ := h
    obtain ⟨rest, hrest, h⟩ := bind_eq_ok_iff.mp h
    have hmem : ∀ f' ∈ rest, f' ∈ f :: fs ∧ isLeafField g f' = .ok true := fun f' hf' =>
      ⟨List.mem_cons_of_mem _ (ih hrest f' hf').1, (ih hrest f' hf').2⟩
    cases h
    cases isLeaf with
    | false => exact hmem
    | true => exact List.forall_mem_cons.mpr ⟨⟨List.mem_cons_self, hleaf⟩, hmem⟩

namespace Within

/-! ## Filters -/

section Filters

variable (h : R.Within S 3 ask ask') {g : TypeGraph} {f : ModelField} (hf : Points S g f)

include h hf

/-- Filters by the value of a field ask for its scalar or enum, unless the field is a list. -/
theorem scalarFilters : R.Holds (scalarFilters g ask f) (scalarFilters g ask' f) := by
  unfold Generate.scalarFilters
  refine holds_bind_ofExcept fun t ht => ?_
  cases t with
  | relation t => exact R.throw _
  | scalar s =>
    dsimp only
    split
    · exact R.pure _
    · exact R.bind (h.familiesFilters (hf.leaf (isLeafField_of_target ht)) _) fun _ => R.pure _
  | enum t =>
    dsimp only
    split
    · exact R.pure _
    · exact R.bind (h.familiesFilters (hf.leaf (isLeafField_of_target ht)) _) fun _ => R.pure _

omit hf in
/-- Filters by a related item ask for the input that selects items of its type. -/
theorem relatedFilters {t : ModelType} (hrelated : g.relatedType? f = some t) (ht : Covers S t.name)
    (suffixes : List String) :
    R.Holds (relatedFilters g ask suffixes f) (relatedFilters g ask' suffixes f) := by
  unfold Generate.relatedFilters
  rw [hrelated]
  exact R.bind (holds_type (h.about ht .whereInput (by decide) rfl nofun)) fun _ => R.pure _

/-- The check that a field is a relation comes first, so what the filters ask for is about its target. -/
theorem relationFilters : R.Holds (relationFilters g ask f) (relationFilters g ask' f) := by
  unfold Generate.relationFilters Generate.manyRelationFilters Generate.oneRelationFilters
  refine holds_bind_ofExcept fun _ hassert => ?_
  have hleaf : isLeafField g f = .ok false := by
    obtain ⟨isLeaf, hleaf, hthrow⟩ := bind_eq_ok_iff.mp hassert
    cases isLeaf with
    | false => exact hleaf
    | true => cases hthrow
  obtain ⟨t, hrelated, htarget⟩ := target_of_isLeafField hleaf
  split
  · exact h.relatedFilters hrelated (hf.relation t htarget) _
  · exact h.relatedFilters hrelated (hf.relation t htarget) _

theorem fieldFilters : R.Holds (fieldFilters g ask f) (fieldFilters g ask' f) := by
  unfold Generate.fieldFilters
  refine R.bind (holds_ofExcept _) fun isLeaf => ?_
  split
  · exact h.scalarFilters hf
  · exact R.bind (h.relationFilters hf) fun _ => R.pure _

end Filters

/-- A filter asks for what its fields point at, and for itself, since filters can be combined. -/
theorem whereFields (h : R.Within S 3 ask ask') {g : TypeGraph} {t : ModelType} (ht : Covers S t.name)
    (hf : ∀ f ∈ t.fields, Points S g f) : R.Holds (whereFields g ask t) (whereFields g ask' t) := by
  unfold Generate.whereFields
  refine R.bind (holds_mapM _ fun f hmem => h.fieldFilters (hf f hmem)) fun _ => ?_
  exact R.bind (holds_type (h.about ht .whereInput (by decide) rfl nofun)) fun _ => R.pure _

/-! ## Nested operations -/

section Operations

variable {t : ModelType} (ht : Covers S t.name)

include ht

theorem askCreate (h : R.Within S 1 ask ask') : R.Holds (askCreate ask t) (askCreate ask' t) :=
  h.about ht .create (by decide) rfl nofun

theorem askNestedUpdate (h : R.Within S 1 ask ask') :
    R.Holds (askNestedUpdate ask t) (askNestedUpdate ask' t) :=
  h.holds _ ht.nestedUpdate Nat.one_pos

theorem askWhereUnique (h : R.Within S 1 ask ask') :
    R.Holds (askWhereUnique ask t) (askWhereUnique ask' t) :=
  h.about ht .whereUnique (by decide) rfl nofun

/-- An embedded type has no items to connect to, so nothing is asked for it. -/
theorem askConnect (h : R.Within S 1 ask ask') : R.Holds (askConnect ask t) (askConnect ask' t) := by
  unfold Generate.askConnect
  split
  · exact R.pure _
  · exact askWhereUnique ht h

theorem createOperations (h : R.Within S 1 ask ask') :
    R.Holds (createOperations ask t) (createOperations ask' t) := by
  unfold Generate.createOperations
  refine R.bind (askCreate ht h) fun _ => ?_
  exact R.bind (askConnect ht h) fun _ => R.pure _

/-- Nested updates are of rank two: the upsert among them asks for other answers itself. -/
theorem updateOneOperations (h : R.Within S 2 ask ask') (required : Bool) :
    R.Holds (updateOneOperations ask t required) (updateOneOperations ask' t required) := by
  unfold Generate.updateOneOperations
  have h1 : R.Within S 1 ask ask' := h.mono (by decide)
  refine R.bind (askCreate ht h1) fun _ => ?_
  refine R.bind (askNestedUpdate ht h1) fun _ => ?_
  refine R.bind (h.about ht .upsertNested (by decide) rfl nofun) fun _ => ?_
  exact R.bind (askConnect ht h1) fun _ => R.pure _

/-- Updates of many nested items ask for updates of selected ones, which ask for answers themselves. -/
theorem updateManyOperations (h : R.Within S 2 ask ask') :
    R.Holds (updateManyOperations ask t) (updateManyOperations ask' t) := by
  unfold Generate.updateManyOperations
  have h1 : R.Within S 1 ask ask' := h.mono (by decide)
  refine R.bind (askWhereUnique ht h1) fun _ => ?_
  refine R.bind (askCreate ht h1) fun _ => ?_
  exact R.bind (h.about ht .updateWithWhereUnique (by decide) rfl nofun) fun _ => R.pure _

/-- The two parts of an update of a selected item are asked for whether or not they are offered. -/
theorem updateSelectedParts (h : R.Within S 1 ask ask') :
    R.Holds (updateSelectedParts ask t) (updateSelectedParts ask' t) := by
  unfold Generate.updateSelectedParts
  refine R.bind (askWhereUnique ht h) fun _ => ?_
  exact R.bind (askNestedUpdate ht h) fun _ => R.pure _

theorem upsertParts (h : R.Within S 1 ask ask') :
    R.Holds (upsertParts ask t) (upsertParts ask' t) := by
  unfold Generate.upsertParts
  refine R.bind (askNestedUpdate ht h) fun _ => ?_
  exact R.bind (askCreate ht h) fun _ => R.pure _

end Operations

/-! ## Inputs -/

section Inputs

variable (h : R.Within S 3 ask ask') {g : TypeGraph}

include h

/-- A field of a create input asks for its leaf, or for the nested create of one or of many items. -/
theorem createField {f : ModelField} (hf : Points S g f) :
    R.Holds (createField g ask f) (createField g ask' f) := by
  unfold Generate.createField
  refine holds_bind_ofExcept fun t ht => ?_
  cases t with
  | scalar s => exact R.bind (h.inputType (hf.leaf (isLeafField_of_target ht))) fun _ => R.pure _
  | enum t => exact R.bind (h.inputType (hf.leaf (isLeafField_of_target ht))) fun _ => R.pure _
  | relation t =>
    have hcovers := hf.relation t ht
    dsimp only
    split
    · exact R.bind (h.about hcovers .createMany (by decide) rfl nofun) fun _ => R.pure _
    · exact R.bind (h.about hcovers .createOne (by decide) rfl nofun) fun _ => R.pure _

/-- A field of an update input asks for its leaf, or for the nested update of one or of many items. -/
theorem updateField {f : ModelField} (hf : Points S g f) :
    R.Holds (updateField g ask f) (updateField g ask' f) := by
  unfold Generate.updateField
  refine holds_bind_ofExcept fun t ht => ?_
  cases t with
  | scalar s => exact R.bind (h.optionalType (hf.leaf (isLeafField_of_target ht))) fun _ => R.pure _
  | enum t => exact R.bind (h.optionalType (hf.leaf (isLeafField_of_target ht))) fun _ => R.pure _
  | relation t =>
    have hcovers := hf.relation t ht
    dsimp only
    split
    · exact R.bind (h.about hcovers .updateMany (by decide) rfl nofun) fun _ => R.pure _
    · exact R.bind (h.request (hcovers.updateOne _)) fun _ => R.pure _

/-- The fields of an input for fields that point at scalars or enums. -/
theorem leafInputs {fs : List ModelField} {t : ModelType} (hfs : fs ⊆ t.fields)
    (hf : ∀ f ∈ t.fields, Points S g f) :
    R.Holds (ofExcept (leafFields g fs) >>= fun leaves => leaves.mapM (Generate.optionalField ask) >>= fun entries =>
        Pure.pure (FieldMap.ofEntries entries))
      (ofExcept (leafFields g fs) >>= fun leaves => leaves.mapM (Generate.optionalField ask') >>= fun entries =>
        Pure.pure (FieldMap.ofEntries entries)) := by
  refine holds_bind_ofExcept fun leaves hleaves => ?_
  refine R.bind (holds_mapM _ fun f hmem => ?_) fun _ => R.pure _
  obtain ⟨hmem, hleaf⟩ := isLeafField_of_mem_leafFields hleaves f hmem
  exact h.optionalField ((hf f (hfs hmem)).leaf hleaf)

variable {t : ModelType} (hf : ∀ f ∈ t.fields, Points S g f)

include hf

theorem createFields : R.Holds (createFields g ask t) (createFields g ask' t) := by
  unfold Generate.createFields
  refine R.bind (holds_mapM _ fun f hmem => ?_) fun _ => R.pure _
  exact h.createField (hf f (List.mem_filter.mp hmem).1)

theorem updateFields : R.Holds (updateFields g ask t) (updateFields g ask' t) := by
  unfold Generate.updateFields
  refine R.bind (holds_mapM _ fun f hmem => ?_) fun _ => R.pure _
  exact h.updateField (hf f (List.mem_filter.mp hmem).1)

theorem updateManyMutationFields :
    R.Holds (updateManyMutationFields g ask t) (updateManyMutationFields g ask' t) := by
  unfold Generate.updateManyMutationFields
  exact h.leafInputs List.filter_sublist.subset hf

theorem whereUniqueFields : R.Holds (whereUniqueFields g ask t) (whereUniqueFields g ask' t) := by
  unfold Generate.whereUniqueFields
  exact h.leafInputs List.filter_sublist.subset hf

/-- The fields of any input, one generator for each kind of input. -/
theorem inputFields (ht : Covers S t.name) (r : Request) :
    R.Holds (inputFields g ask r t) (inputFields g ask' r t) := by
  have h1 : R.Within S 1 ask ask' := h.mono (by decide)
  have h2 : R.Within S 2 ask ask' := h.mono (by decide)
  unfold Generate.inputFields
  cases r.kind with
  | whereInput => exact h.whereFields ht hf
  | whereUnique => exact h.whereUniqueFields hf
  | create => exact h.createFields hf
  | update => exact h.updateFields hf
  | updateManyMutation => exact h.updateManyMutationFields hf
  | createOne => exact R.bind (createOperations ht h1) fun _ => R.pure _
  | createMany => exact R.bind (createOperations ht h1) fun _ => R.pure _
  | updateOne => exact R.bind (updateOneOperations ht h2 _) fun _ => R.pure _
  | updateMany => exact R.bind (updateManyOperations ht h2) fun _ => R.pure _
  | updateWithWhereUnique => exact R.bind (updateSelectedParts ht h1) fun _ => R.pure _
  | upsertNested => exact R.bind (upsertParts ht h1) fun _ => R.pure _
  | _ => exact R.pure _

end Inputs

/-- Whether an input would be empty is found out by asking for kinds of a lower rank than its own. -/
theorem wouldBeEmpty {r : Request} (h : R.Within S r.kind.rank ask ask') (g : TypeGraph) {t : ModelType}
    (ht : Covers S t.name) : R.Holds (wouldBeEmpty g ask r t) (wouldBeEmpty g ask' r t) := by
  unfold Generate.wouldBeEmpty
  cases hk : r.kind with
  | whereUnique => exact R.bind (holds_ofExcept _) fun _ => R.pure _
  | create => exact R.pure _
  | update => exact R.pure _
  | updateManyMutation => exact R.bind (holds_ofExcept _) fun _ => R.pure _
  | createOne =>
    rw [hk] at h
    exact R.bind (createOperations ht h) fun _ => R.pure _
  | createMany =>
    rw [hk] at h
    exact R.bind (createOperations ht h) fun _ => R.pure _
  | updateOne =>
    rw [hk] at h
    exact R.bind (updateOneOperations ht h _) fun _ => R.pure _
  | updateMany =>
    rw [hk] at h
    exact R.bind (updateManyOperations ht h) fun _ => R.pure _
  | updateWithWhereUnique =>
    rw [hk] at h
    exact R.bind (updateSelectedParts ht h) fun _ => R.pure _
  | upsertNested =>
    rw [hk] at h
    exact R.bind (upsertParts ht h) fun _ => R.pure _
  | _ => exact R.pure _

/-! ## Objects and pages -/

section Objects

variable (h : R.Within S 3 ask ask')

include h

theorem manyArgs {name : String} (hname : Covers S name) :
    R.Holds (manyArgs ask name) (manyArgs ask' name) := by
  unfold Generate.manyArgs
  refine R.bind (h.about hname .whereInput (by decide) rfl nofun) fun _ => ?_
  exact R.bind (h.about hname .orderBy (by decide) rfl nofun) fun _ => R.pure _

theorem objectInterfaces (hnode : S (.shared .node)) (t : ModelType) :
    R.Holds (objectInterfaces ask t) (objectInterfaces ask' t) := by
  unfold Generate.objectInterfaces
  split
  · exact R.bind (holds_type (h.request hnode)) fun _ => R.pure _
  · exact R.pure _

/-- A field of an object asks for the type it shows, and for arguments where it shows many items. -/
theorem objectField {g : TypeGraph} {f : ModelField} (hf : Points S g f) :
    R.Holds (objectField g ask f) (objectField g ask' f) := by
  unfold Generate.objectField
  refine holds_bind_ofExcept fun t ht => ?_
  cases t with
  | scalar s => exact R.bind (h.outputType (hf.leaf (isLeafField_of_target ht))) fun _ => R.pure _
  | enum t => exact R.bind (h.outputType (hf.leaf (isLeafField_of_target ht))) fun _ => R.pure _
  | relation t =>
    have hcovers := hf.relation t ht
    refine R.bind (holds_type (h.about hcovers .object (by decide) rfl nofun)) fun _ => ?_
    dsimp only
    split
    · exact R.bind (h.manyArgs hcovers) fun _ => R.pure _
    · exact R.bind (R.pure _) fun _ => R.pure _

theorem objectFields {g : TypeGraph} {t : ModelType} (hf : ∀ f ∈ t.fields, Points S g f) :
    R.Holds (objectFields g ask t) (objectFields g ask' t) := by
  unfold Generate.objectFields
  exact R.bind (holds_mapM _ fun f hmem => h.objectField (hf f hmem)) fun _ => R.pure _

theorem batchPayloadFields (hlong : S (.of .scalar Scalar.long.name)) :
    R.Holds (batchPayloadFields ask) (batchPayloadFields ask') := by
  unfold Generate.batchPayloadFields
  exact R.bind (holds_type (h.request hlong)) fun _ => R.pure _

theorem edgeFields {name : String} (hname : Covers S name) :
    R.Holds (edgeFields ask name) (edgeFields ask' name) := by
  unfold Generate.edgeFields
  exact R.bind (holds_type (h.about hname .object (by decide) rfl nofun)) fun _ => R.pure _

/-- A page asks for the position it has in all pages, for its edges and for its summary. -/
theorem connectionFields (hpage : S (.shared .pageInfo)) {name : String} (hname : Covers S name) :
    R.Holds (connectionFields ask name) (connectionFields ask' name) := by
  unfold Generate.connectionFields
  refine R.bind (holds_type (h.request hpage)) fun _ => ?_
  refine R.bind (holds_type (h.about hname .edge (by decide) rfl nofun)) fun _ => ?_
  exact R.bind (holds_type (h.about hname .aggregate (by decide) rfl nofun)) fun _ => R.pure _

/-! ## Root fields -/

/-- The queries of one model ask for nothing about the others. -/
theorem modelQueries {model : String} (hmodel : Covers S model) :
    R.Holds (modelQueries ask model) (modelQueries ask' model) := by
  unfold Generate.modelQueries
  refine R.bind (holds_type (h.about hmodel .object (by decide) rfl nofun)) fun _ => ?_
  refine R.bind (h.manyArgs hmodel) fun _ => ?_
  refine R.bind (h.about hmodel .whereUnique (by decide) rfl nofun) fun _ => ?_
  refine R.bind (holds_type (h.about hmodel .connection (by decide) rfl nofun)) fun _ => ?_
  exact R.bind (h.manyArgs hmodel) fun _ => R.pure _

/-- The inputs that the mutations of a model take, absent ones among them. -/
theorem mutationInputs {model : String} (hmodel : Covers S model) :
    R.Holds (mutationInputs ask model) (mutationInputs ask' model) := by
  unfold Generate.mutationInputs
  refine R.bind (holds_type (h.about hmodel .whereInput (by decide) rfl nofun)) fun _ => ?_
  refine R.bind (h.about hmodel .whereUnique (by decide) rfl nofun) fun _ => ?_
  refine R.bind (h.about hmodel .create (by decide) rfl nofun) fun _ => ?_
  refine R.bind (h.about hmodel .update (by decide) rfl nofun) fun _ => ?_
  exact R.bind (h.about hmodel .updateManyMutation (by decide) rfl nofun) fun _ => R.pure _

/-- The mutations of one model ask for nothing about the others, apart from the count they share. -/
theorem modelMutations (hbatch : S (.shared .batchPayload)) {model : String} (hmodel : Covers S model) :
    R.Holds (modelMutations ask model) (modelMutations ask' model) := by
  unfold Generate.modelMutations
  refine R.bind (holds_type (h.about hmodel .object (by decide) rfl nofun)) fun _ => ?_
  refine R.bind (holds_type (h.request hbatch)) fun _ => ?_
  exact R.bind (h.mutationInputs hmodel) fun _ => R.pure _

variable {g : TypeGraph} (hmodels : ∀ t ∈ g.models, Covers S t.name)

include hmodels

theorem queryFields (hnode : S (.shared .node)) : R.Holds (queryFields g ask) (queryFields g ask') := by
  unfold Generate.queryFields
  refine R.bind (holds_mapM _ fun t ht => h.modelQueries (hmodels t ht)) fun _ => ?_
  dsimp only
  split
  · exact R.bind (holds_type (h.request hnode)) fun _ => R.pure _
  · exact R.pure _

theorem allMutations (hbatch : S (.shared .batchPayload)) :
    R.Holds (allMutations g ask) (allMutations g ask') := by
  unfold Generate.allMutations
  exact R.bind (holds_mapM _ fun t ht => h.modelMutations hbatch (hmodels t ht)) fun _ => R.pure _

end Objects

/-! ## Answers -/

/-- The subject of a request is the type of the datamodel of that name. -/
theorem find?_of_subject {g : TypeGraph} {r : Request} {t : ModelType} (h : subject g r = .ok t) :
    g.find? r.subject = some t ∧ t.name = r.subject := by
  unfold subject at h
  split at h
  · rename_i u hfind
    cases h
    exact ⟨hfind, (TypeGraph.mem_of_find? hfind).2⟩
  · cases h

/-- Answers correspond as soon as those of lower ranks do. -/
theorem build {g : TypeGraph} {r : Request} (h : R.Within S r.kind.rank ask ask') (hr : Supports S g r) :
    R.Holds (build g ask r) (build g ask' r) := by
  have hself := hr.self
  unfold Generate.build
  cases hk : r.kind with
  | scalar =>
    dsimp only
    cases hfind : g.find? r.subject with
    | some t =>
      dsimp only
      split
      · rename_i henum
        exact h.holds _ (hr.enum hk t hfind henum) (by rw [hk]; exact Nat.zero_lt_one)
      · exact R.throw _
    | none =>
      dsimp only
      cases Scalar.ofName? r.subject with
      | some s => exact R.pure _
      | none => exact R.throw _
  | batchPayload =>
    refine R.bind (h.holds _ hr.long (by rw [hk]; decide)) fun _ => ?_
    exact R.bind (holds_ofExcept _) fun _ => R.pure _
  | enum => exact holds_ofExcept _
  | orderBy => exact holds_ofExcept _
  | node => exact R.bind (holds_ofExcept _) fun _ => R.pure _
  | pageInfo => exact R.bind (holds_ofExcept _) fun _ => R.pure _
  | query => exact R.bind (holds_ofExcept _) fun _ => R.pure _
  | mutation => exact R.bind (holds_ofExcept _) fun _ => R.pure _
  | object => exact R.bind (holds_ofExcept _) fun _ => R.bind (holds_ofExcept _) fun _ => R.pure _
  | edge => exact R.bind (holds_ofExcept _) fun _ => R.bind (holds_ofExcept _) fun _ => R.pure _
  | aggregate =>
    exact R.bind (holds_ofExcept _) fun _ => R.bind (holds_ofExcept _) fun _ => R.pure _
  | connection =>
    exact R.bind (holds_ofExcept _) fun _ => R.bind (holds_ofExcept _) fun _ => R.pure _
  -- What is left are the inputs: whether one is made depends on answers of lower ranks.
  | _ =>
    refine holds_bind_ofExcept fun t ht => ?_
    have hcovers : Covers S t.name := by
      rw [(find?_of_subject ht).2]
      exact hself (by rw [hk]; rfl)
    refine R.bind (h.wouldBeEmpty g hcovers) fun _ => ?_
    split
    · exact R.pure _
    · exact R.bind (holds_ofExcept _) fun _ => R.pure _

/-! ## Parts of types -/

section Parts

variable (h : R.Within S 3 ask ask') {g : TypeGraph} {r : Request} (hr : Supports S g r)

include h hr

theorem outputFields : R.Holds (outputFields g ask r) (outputFields g ask' r) := by
  unfold Generate.outputFields
  cases hk : r.kind with
  | object =>
    refine holds_bind_ofExcept fun t ht => h.objectFields ?_
    exact hr.fields (by rw [hk]; rfl) t (find?_of_subject ht).1
  | batchPayload => exact h.batchPayloadFields hr.long
  | edge => exact h.edgeFields (hr.self (by rw [hk]; rfl))
  | connection => exact h.connectionFields (hr.shared _ rfl) (hr.self (by rw [hk]; rfl))
  | query => exact h.queryFields hr.models (hr.shared _ rfl)
  | mutation => exact h.allMutations hr.models (hr.shared _ rfl)
  | _ => exact R.pure _

theorem interfaces : R.Holds (interfaces g ask r) (interfaces g ask' r) := by
  unfold Generate.interfaces
  cases r.kind with
  | object => exact R.bind (holds_ofExcept _) fun t => h.objectInterfaces (hr.shared _ rfl) t
  | _ => exact R.pure _

/-- What the type that answers a request consists of, kind by kind. -/
theorem body : R.Holds (body g ask r) (body g ask' r) := by
  have hfields := holds_resolving r (h.outputFields hr)
  have hinterfaces := h.interfaces hr
  unfold Generate.body
  cases hk : r.kind with
  | scalar => exact R.pure _
  | enum => exact R.bind (holds_ofExcept _) fun _ => R.pure _
  | orderBy => exact R.bind (holds_ofExcept _) fun _ => R.pure _
  | node => exact R.bind hfields fun _ => R.bind (holds_ofExcept _) fun _ => R.pure _
  | object | pageInfo | batchPayload | edge | aggregate | connection | query | mutation =>
    refine R.bind hinterfaces fun _ => R.bind hfields fun _ => ?_
    exact R.bind (holds_ofExcept _) fun _ => R.pure _
  | _ =>
    refine holds_bind_ofExcept fun t ht => ?_
    obtain ⟨hfind, hname⟩ := find?_of_subject ht
    have hmodel : r.kind.isOfModel = true := by rw [hk]; rfl
    have hinput := h.inputFields (hr.fields hmodel t hfind) (hname ▸ hr.self hmodel) r
    refine R.bind (holds_resolving r hinput) fun _ => ?_
    exact R.bind (holds_ofExcept _) fun _ => R.pure _

theorem define : R.Holds (define g ask (.made r)) (define g ask' (.made r)) := by
  unfold Generate.define
  exact R.bind (h.body hr) fun _ => R.pure _

end Parts

end Within

/-! ## Schemas -/

section Walk

open Schema.Reach

variable {ρ : Type} [DecidableEq ρ] {define : ρ → m (NamedType ρ)} {define' : ρ → n (NamedType ρ)}

/-- A walk defines types one after the other, so it keeps what defining one type keeps. -/
theorem holds_walk (h : ∀ ref, R.Holds (define ref) (define' ref)) (skip : ρ → Bool) :
    ∀ (steps : Nat) (stack : List ρ) (found : Found ρ),
      R.Holds (walk define skip steps stack found) (walk define' skip steps stack found)
  | 0, _, found => R.pure found
  | steps + 1, stack, found => by
    unfold walk
    split
    · exact R.pure found
    · exact R.bind (h _) fun _ => holds_walk h skip steps _ _

theorem holds_walkListed (h : ∀ ref, R.Holds (define ref) (define' ref)) (skip : ρ → Bool)
    (steps : Nat) : ∀ (listed : List ρ) (found : Found ρ),
      R.Holds (walkListed define skip steps listed found) (walkListed define' skip steps listed found)
  | [], found => R.pure found
  | _ :: later, _ =>
    R.bind (holds_walk h _ steps _ _) fun found => holds_walkListed h skip steps later found

theorem holds_types (h : ∀ ref, R.Holds (define ref) (define' ref)) (skip : ρ → Bool)
    (steps : Nat) (listed roots : List ρ) :
    R.Holds (types define skip steps listed roots) (types define' skip steps listed roots) := by
  unfold types
  exact R.bind (holds_walkListed h skip steps listed []) fun _ => holds_walk h skip steps _ _

end Walk

/-! ## Proper requests -/

section Asks

variable {A : Args → Prop}

/-- Ways of asking that correspond on all proper requests do so on the scope of every generator. -/
theorem Asks.within (h : R.Asks A rank ask ask') : R.Within (Request.Proper A) rank ask ask' := ⟨h.holds⟩

theorem Asks.mono {rank' : Nat} (h : R.Asks A rank ask ask') (hr : rank' ≤ rank) :
    R.Asks A rank' ask ask' :=
  ⟨h.distinct, (h.within.mono hr).holds⟩

theorem holds_build {r : Request} (h : R.Asks A r.kind.rank ask ask') (g : TypeGraph) :
    R.Holds (build g ask r) (build g ask' r) :=
  h.within.build (supports_proper h.distinct g r)

theorem holds_wouldBeEmpty {r : Request} (h : R.Asks A r.kind.rank ask ask') (g : TypeGraph)
    (t : ModelType) : R.Holds (wouldBeEmpty g ask r t) (wouldBeEmpty g ask' r t) :=
  h.within.wouldBeEmpty g (covers_proper h.distinct t.name)

variable (h : R.Asks A 3 ask ask') (g : TypeGraph)

include h

theorem holds_fieldFilters (f : ModelField) : R.Holds (fieldFilters g ask f) (fieldFilters g ask' f) :=
  h.within.fieldFilters (points_proper h.distinct g f)

theorem holds_inputFields (r : Request) (t : ModelType) :
    R.Holds (inputFields g ask r t) (inputFields g ask' r t) :=
  h.within.inputFields (fun f _ => points_proper h.distinct g f) (covers_proper h.distinct t.name) r

omit g in
theorem holds_modelQueries (model : String) :
    R.Holds (modelQueries ask model) (modelQueries ask' model) :=
  h.within.modelQueries (covers_proper h.distinct model)

theorem holds_define (x : Handle) : R.Holds (define g ask x) (define g ask' x) := by
  cases x with
  | scalar s => exact R.pure _
  | made r => exact h.within.define (supports_proper h.distinct g r)
  | absent => exact R.pure _

/-- A datamodel without models has no root types; else they are asked for like other types. -/
theorem holds_rootType (kind : Kind) : R.Holds (rootType g ask kind) (rootType g ask' kind) := by
  unfold rootType
  split
  · exact R.pure _
  · exact h.within.request (proper_shared h.distinct kind)

/-- The schemas that two ways of asking lead to correspond. -/
theorem holds_assemble : R.Holds (assemble g ask) (assemble g ask') := by
  have hown : ∀ t : ModelType, R.Holds (ask (ownRequest t)) (ask' (ownRequest t)) := by
    intro t
    unfold ownRequest
    split
    · exact h.within.request (proper_of h.distinct rfl t.name)
    · exact h.within.request (proper_of h.distinct rfl t.name)
  unfold assemble
  refine R.bind (holds_rootType h g _) fun _ => ?_
  refine R.bind (holds_rootType h g _) fun _ => ?_
  refine R.bind (holds_mapM _ fun t _ => hown t) fun _ => ?_
  refine R.bind (holds_types (holds_define h g) _ _ _ _) fun found => ?_
  split
  · exact R.throw _
  · exact R.pure _

end Asks

end Correspondence

end OpenCrud.Generate
