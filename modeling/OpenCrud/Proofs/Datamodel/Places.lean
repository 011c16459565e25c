import OpenCrud.Proofs.Datamodel.WellFormed

/-!
# Definitions wherever they stand

Directives and their arguments know their places in the source, which a datamodel does not: what is read of a
document is what is read of its definitions without places (`Definition.unplaced`). So two definitions can be said
to be the same though they stand in different sources. Main result: `ofDocument_unplaced`.
-/

namespace OpenCrud

namespace Sdl

/-! ## Parts without places -/

def Argument.unplaced (a : Argument) : Argument := { a with place := [] }

def Directive.unplaced (d : Directive) : Directive :=
  { d with arguments := d.arguments.map (·.unplaced), place := [] }

def InputDef.unplaced (d : InputDef) : InputDef := { d with directives := d.directives.map (·.unplaced) }

def FieldDef.unplaced (d : FieldDef) : FieldDef :=
  { d with arguments := d.arguments.map (·.unplaced), directives := d.directives.map (·.unplaced) }

def EnumValueDef.unplaced (d : EnumValueDef) : EnumValueDef :=
  { d with directives := d.directives.map (·.unplaced) }

def ObjectDef.unplaced (d : ObjectDef) : ObjectDef :=
  { d with directives := d.directives.map (·.unplaced), fields := d.fields.map (·.unplaced) }

def EnumDef.unplaced (d : EnumDef) : EnumDef :=
  { d with directives := d.directives.map (·.unplaced), values := d.values.map (·.unplaced) }

def InputObjectDef.unplaced (d : InputObjectDef) : InputObjectDef :=
  { d with directives := d.directives.map (·.unplaced), fields := d.fields.map (·.unplaced) }

def ScalarDef.unplaced (d : ScalarDef) : ScalarDef := { d with directives := d.directives.map (·.unplaced) }

/-- A definition without the places at which its parts stand. -/
def Definition.unplaced : Definition → Definition
  | .object d => .object d.unplaced
  | .interface d => .interface d.unplaced
  | .enum d => .enum d.unplaced
  | .inputObject d => .inputObject d.unplaced
  | .scalar d => .scalar d.unplaced
  | .union d => .union d
  | .schema d => .schema d
  | .other kind => .other kind

/-! ## Directives -/

section Directives

variable (directives : List Directive) (name : String)

/-- A directive is found by its name. -/
theorem findDirective?_unplaced : findDirective? (directives.map (·.unplaced)) name =
    (findDirective? directives name).map (·.unplaced) := by
  rw [findDirective?, findDirective?, List.find?_map]
  rfl

theorem hasDirective_unplaced : hasDirective (directives.map (·.unplaced)) name = hasDirective directives name := by
  rw [hasDirective, findDirective?_unplaced, Option.isSome_map]
  rfl

/-- The value of an argument does not tell where it is written. -/
theorem Directive.argument?_unplaced (d : Directive) : d.unplaced.argument? name = d.argument? name := by
  have hfind : d.unplaced.arguments.find? (·.name.text = name) =
      (d.arguments.find? (·.name.text = name)).map (·.unplaced) := by
    rw [Directive.unplaced, List.find?_map]
    rfl
  rw [Directive.argument?, hfind, Option.bind_map]
  rfl

end Directives

end Sdl

namespace Datamodel

open Sdl

variable {database : Database}

/-! ## Declarations -/

theorem argument?_of_unplaced (directives : List Directive) (directive name : String) :
    (findDirective? (directives.map (·.unplaced)) directive).bind (·.argument? name) =
      (findDirective? directives directive).bind (·.argument? name) := by
  rw [findDirective?_unplaced, Option.bind_map]
  exact congrArg _ (funext fun d => d.argument?_unplaced name)

/-- Reading a field looks at names and values only. -/
theorem declareField_unplaced (type : String) (d : FieldDef) :
    declareField database type d.unplaced = declareField database type d := by
  have hdirective : ∀ name, hasDirective d.unplaced.directives name = hasDirective d.directives name :=
    hasDirective_unplaced d.directives
  have hargument : ∀ directive name, (findDirective? d.unplaced.directives directive).bind (·.argument? name) =
      (findDirective? d.directives directive).bind (·.argument? name) := argument?_of_unplaced d.directives
  have hrelation : (findDirective? d.unplaced.directives "relation").isSome =
      (findDirective? d.directives "relation").isSome := hdirective "relation"
  have hid : isIdField database d.unplaced = isIdField database d := by
    rw [isIdField, isIdField, hdirective]
    rfl
  have hreadOnly : isReadOnlyField database d.unplaced = isReadOnlyField database d := by
    rw [isReadOnlyField, isReadOnlyField, hid, hdirective, hdirective]
    rfl
  simp only [declareField, defaultValue?, hid, hreadOnly, hdirective, hargument, hrelation]
  rfl

theorem declareFields_unplaced (type : String) (seen : List String) (ds : List FieldDef) :
    declareFields database type seen (ds.map (·.unplaced)) = declareFields database type seen ds := by
  induction ds generalizing seen with
  | nil => rfl
  | cons d ds ih => simp only [List.map_cons, declareFields, declareField_unplaced, ih]

theorem declareType_unplaced (d : Definition) :
    declareType database d.unplaced = declareType database d := by
  cases d with
  | enum d =>
    have hvalues : d.unplaced.values.map (·.name.text) = d.values.map (·.name.text) := List.map_map
    have hempty : d.unplaced.values.isEmpty = d.values.isEmpty := List.isEmpty_map
    simp only [Definition.unplaced, declareType, declareEnum, hvalues, hempty]
    rfl
  | object d =>
    have hembedded : hasDirective d.unplaced.directives "embedded" = hasDirective d.directives "embedded" :=
      hasDirective_unplaced d.directives "embedded"
    have hfields : declareFields database d.unplaced.name.text [] d.unplaced.fields =
        declareFields database d.name.text [] d.fields := declareFields_unplaced d.name.text [] d.fields
    simp only [Definition.unplaced, declareType, declareObject, hembedded, hfields]
    rfl
  | _ => rfl

/-- Places take no part in what is checked from one definition to the next. -/
theorem declareTypes_unplaced (seen : List String) (document : Document) :
    declareTypes database seen (document.map (·.unplaced)) = declareTypes database seen document := by
  induction document generalizing seen with
  | nil => rfl
  | cons d ds ih => simp only [List.map_cons, declareTypes, declareType_unplaced, ih]

/-- Where the definitions of a document stand makes no difference to the datamodel. -/
theorem ofDocument_unplaced (document : Document) :
    ofDocument database (document.map (·.unplaced)) = ofDocument database document := by
  simp only [ofDocument, declareTypes_unplaced]

/-- A model whose key is marked at a place. -/
def accountDefinition (place : Sdl.Place) : Definition :=
  .object {
    description := none
    name := ⟨"Account", by decide⟩
    interfaces := []
    directives := []
    fields := [{
      description := none
      name := ⟨"key", by decide⟩
      arguments := []
      type := .nonNull (.named ⟨"ID", by decide⟩)
      directives := [{ name := ⟨"id", by decide⟩, arguments := [], place }] }] }

def tierDefinition : Definition :=
  .enum {
    description := none
    name := ⟨"Tier", by decide⟩
    directives := []
    values := [{ description := none, name := ⟨"FREE", by decide⟩, directives := [] }] }

example (place : Sdl.Place) : (accountDefinition place).unplaced = accountDefinition [] := rfl

end Datamodel

end OpenCrud
