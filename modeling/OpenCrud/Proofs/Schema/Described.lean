import OpenCrud.Proofs.FieldMap
import OpenCrud.Schema.Basic

/-!
# Descriptions in a type

What it means that all descriptions in a type have a property (`NamedType.Described`). Such a type has no
directives: neither a deprecated part nor a place where it is specified.
-/

namespace OpenCrud

section Described

variable {ρ σ : Type} (D : String → Prop)

/-- An argument or an input field whose description has a property. -/
def InputField.Described (field : InputField ρ) : Prop :=
  field.deprecation = none ∧ ∀ text ∈ field.description, D text

/-- An output field that is described with a property, and so are its arguments. -/
def OutputField.Described (field : OutputField ρ) : Prop :=
  field.deprecation = none ∧ (∀ text ∈ field.description, D text) ∧
    ∀ entry ∈ field.args, entry.2.Described D

/-- A body whose parts are described with a property. The values of enums are names without descriptions. -/
def TypeBody.Described : TypeBody ρ → Prop
  | .scalar specification => specification = none
  | .enum values => ∀ entry ∈ values, isName entry.1.toList = true ∧ entry.2 = {}
  | .object _ fields | .interface _ fields => ∀ entry ∈ fields, entry.2.Described D
  | .union _ => True
  | .inputObject fields _ => ∀ entry ∈ fields, entry.2.Described D

/-- A type that is described with a property, and so are its parts. -/
def NamedType.Described (t : NamedType ρ) : Prop :=
  (∀ text ∈ t.description, D text) ∧ t.body.Described D

variable {D}

/-! ## Other properties -/

theorem InputField.Described.mono {field : InputField ρ} (h : field.Described D) {D' : String → Prop}
    (hD : ∀ text, D text → D' text) : field.Described D' :=
  ⟨h.1, fun text htext => hD text (h.2 text htext)⟩

/-- A weaker property of descriptions holds of the same fields. -/
theorem OutputField.Described.mono {field : OutputField ρ} (h : field.Described D) {D' : String → Prop}
    (hD : ∀ text, D text → D' text) : field.Described D' :=
  ⟨h.1, fun text htext => hD text (h.2.1 text htext), fun entry hentry => (h.2.2 entry hentry).mono hD⟩

/-! ## Other references -/

theorem InputField.described_map_iff {f : ρ → σ} {field : InputField ρ} :
    (field.map f).Described D ↔ field.Described D := Iff.rfl

theorem OutputField.described_map_iff {f : ρ → σ} {field : OutputField ρ} :
    (field.map f).Described D ↔ field.Described D := by
  simp only [OutputField.Described, OutputField.map, List.forall_mem_map, InputField.described_map_iff]

/-- Renaming references changes no description. -/
theorem TypeBody.described_map_iff {f : ρ → σ} {body : TypeBody ρ} :
    (body.map f).Described D ↔ body.Described D := by
  cases body with
  | scalar => rfl
  | enum => rfl
  | union => rfl
  | object interfaces fields =>
    simp only [TypeBody.Described, TypeBody.map, List.forall_mem_map, OutputField.described_map_iff]
  | interface interfaces fields =>
    simp only [TypeBody.Described, TypeBody.map, List.forall_mem_map, OutputField.described_map_iff]
  | inputObject fields isOneOf =>
    simp only [TypeBody.Described, TypeBody.map, List.forall_mem_map, InputField.described_map_iff]

theorem NamedType.described_map_iff {f : ρ → σ} {t : NamedType ρ} :
    (t.map f).Described D ↔ t.Described D :=
  and_congr_right fun _ => TypeBody.described_map_iff

end Described

end OpenCrud
