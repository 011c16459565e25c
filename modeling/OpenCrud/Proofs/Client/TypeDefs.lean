import OpenCrud.Proofs.Client.PrintedText
import OpenCrud.Proofs.Generate.Assembled
import OpenCrud.Proofs.Generate.Descriptions

/-!
# The schema as a template literal

A client holds the printed schema between backticks. Main result: the literal has the value of the printed schema
exactly where every description in the datamodel is shown as it is (`typeDefs_iff`). Backticks do no harm;
backslashes and what looks like a substitution do.
-/

namespace OpenCrud.Client

open Datamodel Generate

theorem toList_typeDefs (s : Schema) :
    (typeDefs s).toList = "const typeDefs = ".toList ++ embedded s.print.toList := by
  unfold typeDefs embedded
  generalize s.print.toList.flatMap escapeBacktick = text
  rw [String.toList_ofList, List.append_assoc]

/-! ## Schemas of datamodels -/

theorem shownAsIs_fixedTexts : ∀ text ∈ fixedTexts, ShownAsIs text := by decide +kernel

/-- The scalars that a schema declares have no descriptions. -/
theorem description?_of_isDeclared {D : String → Prop} {s : Scalar}
    (h : Schema.isDeclared ((NamedType.ofScalar s : NamedType Handle).map Handle.name) = true) :
    ∀ text ∈ s.description?, D text := by
  have hdeclared : (!isReservedName s.name) = true := h
  have hcases : ∀ s : Scalar, isReservedName s.name = true ∨ s.description? = none := by
    intro s
    cases s <;> first | exact Or.inr rfl | exact Or.inl (by decide)
  rcases hcases s with hs | hs
  · rw [hs] at hdeclared
    cases hdeclared
  · rw [hs]
    exact nofun

section Assembled

variable {g : TypeGraph} (h : WellFormed g.types) {s : Schema} (hs : Assembled g s)

include h hs

/-- The types of a schema read as they are where the types of the datamodel are described so. -/
theorem shows_of_mem {t : NamedType String} (ht : t ∈ s.types) :
    Shows (t.Described ShownAsIs) t.print := by
  obtain ⟨x, hx, d, hd, rfl⟩ := (hs.types t).mp ht
  have hvalid := valid_of_reachedFrom h valid_schemaRoots hx
  obtain ⟨d', hd', hname, hsound⟩ := hs.exists_define h hx
  obtain rfl : d = d' := Except.ok.inj (hd.symm.trans hd')
  refine shows_print ?_ (hsound.map fun _ hy => hy.isName_name h) ?_
  · show isName d.name.toList = true
    rw [hname]
    exact hvalid.isName_name h
  · rw [NamedType.described_map_iff]
    exact described_of_valid h (fresh g) (fun _ _ => trivial) hvalid (fun _ _ _ _ => trivial)
      (fun _ _ _ => ⟨fun _ _ => trivial, fun _ _ _ _ => trivial⟩) hd

/-- Every type with fields of the datamodel is declared in the schema. -/
theorem exists_declared {t : ModelType} (ht : t ∈ g.types) (henum : t.isEnum = false) :
    ∃ d, define g (fresh g) (.made (.of .object t.name)) = .ok d ∧
      d.map Handle.name ∈ s.types.filter Schema.isDeclared := by
  have hroot := Assembled.reached_object ht henum
  obtain ⟨d, hd, hname, _⟩ := hs.exists_define h hroot
  refine ⟨d, hd, List.mem_filter.mpr ⟨(hs.types _).mpr ⟨_, hroot, d, hd, rfl⟩, ?_⟩⟩
  have hdeclared : Schema.isDeclared (d.map Handle.name) = !isReservedName d.name := rfl
  have hdname : d.name = t.name := hname
  rw [hdeclared, hdname, isReservedName_declared h ht (hs.free t ht)]
  rfl

theorem described_types_iff :
    (∀ t ∈ s.types.filter Schema.isDeclared, t.Described ShownAsIs) ↔
      ∀ t ∈ g.types, t.isEnum = false → t.Described ShownAsIs := by
  constructor
  · intro hall t ht henum
    obtain ⟨d, hd, hmem⟩ := exists_declared h hs ht henum
    rw [← described_object_iff h (fresh g) ht hd, ← NamedType.described_map_iff]
    exact hall _ hmem
  · intro hall t ht
    obtain ⟨hmem, hdeclared⟩ := List.mem_filter.mp ht
    obtain ⟨x, hx, d, hd, rfl⟩ := (hs.types t).mp hmem
    rw [NamedType.described_map_iff]
    refine described_of_valid h (fresh g) shownAsIs_fixedTexts
      (valid_of_reachedFrom h valid_schemaRoots hx) ?_ hall hd
    rintro s rfl
    cases hd
    exact description?_of_isDeclared hdeclared

omit h in
/-- A definition of the root types is nothing but names. -/
theorem plain_of_mem_printRoots {text : String} (htext : text ∈ s.printRoots?.toList) :
    text.toList.all isPlain = true := by
  have hroots : s.roots = [] ∨ s.roots = [("query", "Query"), ("mutation", "Mutation")] := by
    rw [Schema.roots, hs.query, hs.mutation, hs.subscription]
    unfold rootName
    split
    · exact Or.inl rfl
    · exact Or.inr rfl
  rw [Option.mem_toList] at htext
  unfold Schema.printRoots? at htext
  rcases hroots with hroots | hroots
  · rw [hroots] at htext
    cases htext
  · rw [hroots, hs.description] at htext
    split at htext
    · cases htext
    split at htext
    · cases htext
    · cases htext
      decide

theorem readsAsIs_print_iff :
    ReadsAsIs s.print.toList ↔ ∀ t ∈ g.types, t.isEnum = false → t.Described ShownAsIs := by
  have hshows : ∀ t ∈ s.types.filter Schema.isDeclared, Shows (t.Described ShownAsIs) t.print :=
    fun t ht => shows_of_mem h hs (List.mem_filter.mp ht).1
  have hclosed : ∀ text ∈ s.printRoots?.toList ++ (s.types.filter Schema.isDeclared).map NamedType.print,
      text.toList.getLast? ≠ some '$' := by
    rw [List.forall_mem_append, List.forall_mem_map]
    exact ⟨fun text htext => getLast?_ne_of_plain (plain_of_mem_printRoots hs htext),
      fun t ht => (hshows t ht).closed⟩
  have hroots : ∀ text ∈ s.printRoots?.toList, ReadsAsIs text.toList := fun text htext =>
    readsAsIs_of_plain (plain_of_mem_printRoots hs htext)
  rw [Schema.print, (shows_intercalate (by decide) hclosed).reads, List.forall_mem_append,
    List.forall_mem_map, ← described_types_iff h hs]
  exact (and_iff_right hroots).trans (forall₂_congr fun t ht => (hshows t ht).reads)

end Assembled

/-! ## Main result -/

/--
Behind its name, the constant of a client is a text between backticks. It is one template literal with the value of
the printed schema exactly where the descriptions in the datamodel, those of its types and those of their fields,
are all shown as they are.

The texts of generated types never get in the way, and neither do enums, whose descriptions are not printed.
-/
theorem typeDefs_iff {database : Database} {source : List Char} {types : List ModelType}
    (h : parse database source = .ok types) {s : Schema} (hs : schema (.ofTypes types) = .ok s) :
    ∃ literal, (typeDefs s).toList = "const typeDefs = ".toList ++ literal ∧
      (templateValue? literal = some (textUnits s.print.toList) ↔
        ∀ t ∈ types, t.isEnum = false → t.Described ShownAsIs) := by
  have hwf := (wellFormed_of_parse h).ofTypes
  rw [schema_eq_assemble] at hs
  have hprint := readsAsIs_print_iff hwf (assembled_of_eq_ok hwf hs)
  rw [TypeGraph.types_ofTypes (wellFormed_of_parse h).nodup_names] at hprint
  exact ⟨embedded s.print.toList, toList_typeDefs s, (templateValue?_embedded_iff _).trans hprint⟩

/-- A type with backticks and a dollar sign in its description. -/
def ticked : ModelType where
  name := "A"
  fields := [{ name := "a", typeName := "Int" }]
  description := some "A \x60word\x60 for $5"

/-- Backticks are read back, and so is a dollar sign. -/
theorem typeDefs_ticked : ∃ s,
    parse .relational "\"A \x60word\x60 for $5\" type A { a: Int }".toList = .ok [ticked] ∧
    schema (.ofTypes [ticked]) = .ok s ∧
    ∃ literal, (typeDefs s).toList = "const typeDefs = ".toList ++ literal ∧
      templateValue? literal = some (textUnits s.print.toList) := by
  have hparse : parse .relational "\"A \x60word\x60 for $5\" type A { a: Int }".toList = .ok [ticked] := rfl
  obtain ⟨s, hs⟩ : ∃ s, schema (.ofTypes [ticked]) = .ok s := exists_eq_ok (by decide +kernel)
  obtain ⟨literal, htext, hvalue⟩ := typeDefs_iff hparse hs
  refine ⟨s, hparse, hs, literal, htext, hvalue.mpr ?_⟩
  have hshown : ShownAsIs "A \x60word\x60 for $5" := by decide +kernel
  rintro t ht -
  rw [List.mem_singleton.mp ht]
  refine ⟨?_, List.forall_mem_singleton.mpr nofun⟩
  rintro _ ⟨⟩
  exact hshown

/-- A type with a backslash in its description. -/
def backslashed : ModelType where
  name := "A"
  fields := [{ name := "a", typeName := "Int" }]
  isEmbedded := true
  description := some "C:\\new"

/-- A backslash and the letter behind it are read as one character. -/
theorem typeDefs_loses_backslash :
    parse .document "\"\"\"C:\\new\"\"\" type A @embedded { a: Int }".toList = .ok [backslashed] ∧
    (schema (.ofTypes [backslashed])).map (fun s => (s.print, typeDefs s)) =
      .ok ("\"\"\"C:\\new\"\"\"\ntype A \x7b\n  a: Int\n\x7d",
        "const typeDefs = \x60\"\"\"C:\\new\"\"\"\ntype A \x7b\n  a: Int\n\x7d\x60") ∧
    templateValue? "\x60\"\"\"C:\\new\"\"\"\ntype A \x7b\n  a: Int\n\x7d\x60".toList =
      some (textUnits "\"\"\"C:\new\"\"\"\ntype A \x7b\n  a: Int\n\x7d".toList) := by
  refine ⟨rfl, ?_, ?_⟩
  · decide +kernel
  · decide +kernel

end OpenCrud.Client
