import TypedStub.Proofs.Outline.Annotations
import TypedStub.Proofs.Reference
import TypedStub.Stub

/-! What the imports of a stub bind, and where an imported reference leads.

An import binds one name, and a reference means the path in which its first segment is replaced by what
that is bound to. The resolver and the imports decide apart from each other how a path is reached. They
agree on every path but one: the path of the module itself, directly inside its package.
-/

set_option autoImplicit false

namespace TypedStub

def Dotted.rebase (target name : String) : String :=
  match Dotted.tail? name with
  | none => target
  | some rest => target ++ "." ++ rest

namespace Stub

def Statement.bindings : Statement → List (String × String)
  | .importFrom parent names => names.map fun name => (name, parent ++ "." ++ name)
  | .importModule path => [(Dotted.head path, Dotted.head path)]
  | .classDef .. | .function .. | .assignment .. | .docstring _ | .ellipsis => []

/-- One of the statements imports the first segment of a name, so that the name means a path. -/
def Reaches (statements : List Statement) (name path : String) : Prop :=
  ∃ binding ∈ statements.flatMap Statement.bindings,
    binding.1 = Dotted.head name ∧ Dotted.rebase binding.2 name = path

instance (statements : List Statement) (name path : String) : Decidable (Reaches statements name path) :=
  inferInstanceAs (Decidable (∃ binding ∈ statements.flatMap Statement.bindings, _))

end Stub

namespace Dotted

variable {target first rest name inner : String}

theorem rebase_of_isSegment (segment : IsSegment name) : rebase target name = target := by
  simp only [rebase, tail?_of_isSegment segment]

theorem rebase_dotted (segment : IsSegment first) :
    rebase target (first ++ "." ++ rest) = target ++ "." ++ rest := by
  simp only [rebase, tail?_dotted segment]

theorem rebase_head (package name : String) : rebase (package ++ "." ++ head name) name = package ++ "." ++ name := by
  rcases isSegment_or_dotted name with segment | ⟨first, rest, segment, rfl⟩
  · rw [rebase_of_isSegment segment, head_of_isSegment segment]
  · rw [rebase_dotted segment, head_dotted segment]
    simp only [String.append_assoc]

theorem rebase_head_self (name : String) : rebase (head name) name = name := by
  rcases isSegment_or_dotted name with segment | ⟨first, rest, segment, rfl⟩
  · rw [rebase_of_isSegment segment, head_of_isSegment segment]
  · rw [rebase_dotted segment, head_dotted segment]

end Dotted

namespace Stub

variable {moduleName importPath parent last : String}

theorem importOf_sibling (segment : Dotted.IsSegment last) {inner : String}
    (inside : parent ++ "." ++ last = Dotted.head moduleName ++ "." ++ inner) :
    importOf moduleName (parent ++ "." ++ last) = .importFrom parent [last] := by
  have after := Dotted.after?_eq_some_iff.2 inside
  simp only [importOf, after, Dotted.splitLast?_dotted segment]

theorem importOf_elsewhere (outside : ∀ inner, importPath ≠ Dotted.head moduleName ++ "." ++ inner) :
    importOf moduleName importPath = .importModule importPath := by
  unfold importOf
  split
  · rename_i after _
    exact absurd (Dotted.after?_eq_some_iff.1 after) (outside _)
  · rfl

theorem binding_of_importOf {binding : String × String}
    (bound : binding ∈ (importOf moduleName importPath).bindings) :
    binding.2 = importPath ∨ Dotted.IsSegment binding.2 := by
  unfold importOf at bound
  split at bound
  · rename_i split
    cases List.mem_singleton.1 bound
    exact .inl (Dotted.splitLast?_eq_some_iff.1 split).1.symm
  · cases List.mem_singleton.1 bound
    exact .inr (Dotted.isSegment_head importPath)

theorem bindings_ofClass (item : ClassOutline) : (ofClass item).bindings = [] := rfl

theorem bindings_ofCallable (item : CallableOutline) : (ofCallable item).bindings = [] := rfl

theorem bindings_ofConstant (item : ConstantOutline) : (ofConstant item).bindings = [] := rfl

theorem mem_bindings_ofOutline {outline : ModuleOutline} {binding : String × String} :
    binding ∈ (ofOutline outline).flatMap Statement.bindings ↔
      binding = ("annotations", "__future__.annotations") ∨
      ∃ importPath, (importPath = "typing" ∨ importPath ∈ outline.imports) ∧ importPath ≠ outline.name ∧
        binding ∈ (importOf outline.name importPath).bindings := by
  have others : (outline.classes.map ofClass ++ outline.functions.map ofCallable
      ++ outline.metadata.map ofConstant).flatMap Statement.bindings = [] := by
    simp [List.flatMap_append, List.flatMap_map, bindings_ofClass, bindings_ofCallable, bindings_ofConstant]
  have parts : ofOutline outline = imports outline.name outline.imports ++
      (outline.classes.map ofClass ++ outline.functions.map ofCallable ++ outline.metadata.map ofConstant) := by
    simp only [ofOutline, List.append_assoc]
  rw [parts, List.flatMap_append, others, List.append_nil, imports, List.flatMap_cons, List.flatMap_map,
    List.mem_append, List.mem_flatMap]
  apply or_congr
  · exact List.mem_singleton
  · simp only [List.mem_filter, ← NameSet.mem_def, NameSet.mem_insert, bne_iff_ne, ne_eq, and_assoc]

end Stub

variable {view : Viewpoint} {path reference importPath : String}

theorem Viewpoint.Imports.rebase (imports : view.Imports path reference importPath) :
    ∃ target, (Dotted.head reference, target) ∈ (Stub.importOf view.moduleName importPath).bindings ∧
      Dotted.rebase target reference = path := by
  cases imports with
  | @inner first rest segment =>
    obtain ⟨inner, inside⟩ := view.exists_in_package first
    rw [Stub.importOf_sibling segment inside, Dotted.head_dotted segment]
    exact ⟨_, List.mem_singleton_self _, Dotted.rebase_dotted segment⟩
  | sibling outside =>
    have inside : view.package ++ "." ++ Dotted.head reference =
        Dotted.head view.moduleName ++ "." ++ Dotted.head reference := rfl
    rw [Stub.importOf_sibling (Dotted.isSegment_head reference) inside]
    exact ⟨_, List.mem_singleton_self _, Dotted.rebase_head _ _⟩
  | @elsewhere _ last segment outside =>
    rw [Stub.importOf_elsewhere (Dotted.ne_dotted_of_outside outside), Dotted.head_dotted_head]
    refine ⟨_, List.mem_singleton_self _, ?_⟩
    rw [← Dotted.head_dotted_head importPath last]
    exact Dotted.rebase_head_self _

namespace Stub

/-- The module whose own name the import of the language's annotations binds. -/
def annotationsPath : String := "__future__.annotations"

/-- The imports of a stub bind each imported reference so that it means its path, except that a module
directly inside its package does not import itself. -/
theorem reaches_iff {view : Viewpoint} {outline : ModuleOutline} {path reference importPath : String}
    (named : outline.name = view.moduleName) (isPath : Dotted.IsPath path)
    (refers : view.referFull path = .imported reference importPath) (needed : importPath ∈ outline.imports) :
    Reaches (ofOutline outline) reference path ↔
      (view.IsDirectModule path → view.moduleName = annotationsPath) := by
  have imports := Viewpoint.imports_of_referFull refers
  by_cases direct : view.IsDirectModule path
  · obtain ⟨-, segment, parts⟩ := imports.of_isDirectModule isPath direct
    constructor
    · rintro ⟨binding, bound, -, means⟩ -
      rw [Dotted.rebase_of_isSegment segment, direct.1] at means
      rcases mem_bindings_ofOutline.1 bound with rfl | ⟨other, -, different, bound⟩
      · exact means.symm
      · -- Any other import binds a name to another module or to a top-level package.
        exfalso
        rcases binding_of_importOf bound with whole | single
        · apply different
          rw [named, ← means, whole]
        · rw [means, parts] at single
          exact Dotted.not_isSegment_dotted _ _ single
    · -- The reference to this one module is bound by the import that every stub has.
      intro exception
      have language := exception direct
      have last : Dotted.splitLast? annotationsPath = some ("__future__", "annotations") := by decide
      rw [← language, parts, Dotted.splitLast?_dotted segment] at last
      obtain ⟨-, rfl⟩ := Prod.mk.inj (Option.some.inj last)
      refine ⟨_, mem_bindings_ofOutline.2 (.inl rfl), rfl, ?_⟩
      rw [Dotted.rebase_of_isSegment segment, direct.1, language]
      rfl
  · constructor
    · intro _ isDirect
      exact absurd isDirect direct
    · intro _
      obtain ⟨target, bound, means⟩ := imports.rebase
      -- Every other import is kept, and it is the one that the reference was made for.
      have different : importPath ≠ outline.name := by
        rw [named]
        exact fun same => direct (imports.isDirectModule isPath same)
      rw [← named] at bound
      exact ⟨(_, target), mem_bindings_ofOutline.2 (.inr ⟨importPath, .inr needed, different, bound⟩), rfl, means⟩

end Stub

/-! ### Imported references in a stub

The reference to a path is chosen while its text is read, the import that the reference needs is kept with the
outline, and the import statements are written from the outline alone. Through these statements each
reference means its path.
-/

theorem isPath_expand {aliases : Aliases} {path : String}
    (valid : ∀ name path, aliases.get? name = some path → Dotted.IsPath path) (isPath : Dotted.IsPath path) :
    Dotted.IsPath (aliases.expand path) := by
  cases found : aliases.get? path with
  | none => simpa [Aliases.expand, found] using isPath
  | some full => simpa [Aliases.expand, found] using valid path full found

theorem isWrittenPath_of_builtin {name path : String} (found : Aliases.builtin.get? name = some path) :
    TypeTerm.IsWrittenPath path := by
  have all : ∀ entry ∈ Aliases.builtinEntries, TypeTerm.IsWrittenPath entry.2 := by
    simp only [Aliases.builtinEntries, List.forall_mem_cons]
    repeat refine ⟨TypeTerm.isWrittenPath_ofList rfl (by decide) (by decide), ?_⟩
    exact List.forall_mem_nil _
  exact all _ (NameMap.mem_of_get?_ofList found)

/-- The annotations of a stub are read from the documented types of the module. Each path in these that is
imported is reached through the imports of the stub, except the path of a module directly inside its package,
which does not import itself. -/
theorem imported_reaches {aliases : Aliases} {names : List String} {mod : Module} {found : Found ModuleOutline}
    (valid : ∀ name path, aliases.get? name = some path → Dotted.IsPath path)
    (outlined : mod.outline ⟨aliases, mod.name⟩ names = .ok found) :
    (∀ type ∈ found.value.annotations,
      Annotates (Viewpoint.refer ⟨aliases, mod.name⟩) mod.visibleNames mod.typeTexts type) ∧
    ∀ text ∈ mod.typeTexts, ∃ raw, TypeTerm.parse text = .ok raw ∧
      ∀ path ∈ raw.paths, ∀ reference importPath,
        Viewpoint.refer ⟨aliases, mod.name⟩ path = .imported reference importPath →
        (Stub.Reaches (Stub.ofOutline found.value) reference (aliases.expand path) ↔
          (aliases.expand path = mod.name ∧ (Dotted.segments mod.name).length = 2 →
            mod.name = Stub.annotationsPath)) := by
  have reads := outline_reads outlined
  obtain ⟨named, imports⟩ := outline_header outlined
  refine ⟨reads.annotated, ?_⟩
  intro text member
  obtain ⟨raw, parsed⟩ := reads.parses text member
  refine ⟨raw, parsed, ?_⟩
  intro path inRaw reference importPath refers
  have isPath := isPath_expand valid (TypeTerm.isPath_of_parse parsed inRaw)
  -- The path is written in a documented type, so the outline has kept its import.
  have needed : importPath ∈ found.value.imports := by
    rw [imports, reads.mem_imports]
    exact ⟨text, member, raw, parsed, path, inRaw, by rw [refers]; rfl⟩
  exact @Stub.reaches_iff ⟨aliases, mod.name⟩ _ _ _ _ named isPath refers needed

def selfReturning : Module where
  name := "anise.astro"
  doc := none
  attributes := ∅
  members := [
    ⟨"now", none, .routine { doc := some ":rtype: Epoch", signature := some ⟨[]⟩ }⟩,
    ⟨"whole", none, .routine { doc := some ":rtype: anise.astro", signature := some ⟨[]⟩ }⟩]

def epochAlias : Aliases := .ofList [("Epoch", "anise.time.Epoch")]

def selfReturningOutline : ModuleOutline where
  name := "anise.astro"
  functions := [
    ⟨"now", .function, [], some (.name "time.Epoch"), none⟩,
    ⟨"whole", .function, [], some (.name "astro"), none⟩]
  imports := .ofList ["anise.astro", "anise.time"]

theorem outline_selfReturning : selfReturning.outline ⟨epochAlias, "anise.astro"⟩ [] =
    .ok { value := selfReturningOutline, imports := selfReturningOutline.imports } := by with_unfolding_all rfl

theorem imported_reaches_now : Stub.Reaches (Stub.ofOutline selfReturningOutline) "time.Epoch" "anise.time.Epoch" := by
  have valid : ∀ name path, epochAlias.get? name = some path → Dotted.IsPath path := by
    intro name path found
    cases List.mem_singleton.1 (NameMap.mem_of_get?_ofList found)
    decide
  obtain ⟨raw, parsed, reached⟩ := (imported_reaches valid outline_selfReturning).2 "Epoch" (by decide)
  have read : TypeTerm.parse "Epoch" = .ok (.name "Epoch") := by with_unfolding_all rfl
  cases parsed.symm.trans read
  have reaches := reached "Epoch" (by decide) "time.Epoch" "anise.time" (by with_unfolding_all rfl)
  exact reaches.2 fun same => absurd same.1 (by decide)

/-- The function that returns the module itself is annotated with a name that nothing imports. -/
theorem not_reaches_whole :
    selfReturning.outline ⟨epochAlias, "anise.astro"⟩ [] =
      .ok { value := selfReturningOutline, imports := selfReturningOutline.imports } ∧
    "anise.astro" ∈ selfReturning.typeTexts ∧
    TypeTerm.parse "anise.astro" = .ok (.name "anise.astro") ∧
    Viewpoint.refer ⟨epochAlias, "anise.astro"⟩ "anise.astro" = .imported "astro" "anise.astro" ∧
    .name "astro" ∈ selfReturningOutline.annotations ∧
    ¬ Stub.Reaches (Stub.ofOutline selfReturningOutline) "astro" "anise.astro" := by
  refine ⟨outline_selfReturning, by decide, by with_unfolding_all rfl, by with_unfolding_all rfl, by decide⟩

/-! ### Names that the imports of a stub bind more than once

A module of the same package is bound by its last segment, and what is outside the package by its first one.
Nothing keeps these names apart. They meet on two levels of the package, with a package of the same name, or with
the annotations of the language; everywhere else a name has one meaning.
-/

namespace Dotted

theorem rebase_injective {first second name : String} (same : rebase first name = rebase second name) :
    first = second := by
  rcases isSegment_or_dotted name with segment | ⟨head, rest, segment, rfl⟩
  · rwa [rebase_of_isSegment segment, rebase_of_isSegment segment] at same
  · rw [rebase_dotted segment, rebase_dotted segment, String.append_assoc, String.append_assoc] at same
    exact (String.append_left_inj _).1 same

end Dotted

namespace Stub

def Rebinds (statements : List Statement) (name : String) : Prop :=
  ∃ first ∈ statements.flatMap Statement.bindings, ∃ second ∈ statements.flatMap Statement.bindings,
    first.1 = name ∧ second.1 = name ∧ first.2 ≠ second.2

instance (statements : List Statement) (name : String) : Decidable (Rebinds statements name) :=
  inferInstanceAs (Decidable (∃ first ∈ statements.flatMap Statement.bindings, _))

/-- A reference has several meanings exactly if its first segment is bound again. -/
theorem exists_reaches_ne_iff {statements : List Statement} {reference : String} :
    (∃ path other, Reaches statements reference path ∧ Reaches statements reference other ∧ path ≠ other) ↔
      Rebinds statements (Dotted.head reference) := by
  constructor
  · rintro ⟨path, other, ⟨first, bound, named, rfl⟩, ⟨second, boundAlso, namedAlso, rfl⟩, different⟩
    exact ⟨first, bound, second, boundAlso, named, namedAlso, fun same => different (by rw [same])⟩
  · rintro ⟨first, bound, second, boundAlso, named, namedAlso, different⟩
    refine ⟨_, _, ⟨first, bound, named, rfl⟩, ⟨second, boundAlso, namedAlso, rfl⟩, ?_⟩
    exact fun same => different (Dotted.rebase_injective same)

/-- What the import of a path binds, as seen from a module. -/
inductive Binds (moduleName : String) : (path name target : String) → Prop where
  | inside {parent name : String} (level : parent = moduleName ∨ parent = Dotted.head moduleName)
      (segment : Dotted.IsSegment name) : Binds moduleName (parent ++ "." ++ name) name (parent ++ "." ++ name)
  | outside {path name : String} (away : ∀ inner, path ≠ Dotted.head moduleName ++ "." ++ inner)
      (named : Dotted.head path = name) : Binds moduleName path name name

variable {moduleName path name target : String}

theorem exists_in_head_of_level {parent : String} (level : parent = moduleName ∨ parent = Dotted.head moduleName)
    (name : String) : ∃ inner, parent ++ "." ++ name = Dotted.head moduleName ++ "." ++ inner := by
  rcases level with rfl | rfl
  · exact Dotted.exists_in_head _ name
  · exact ⟨name, rfl⟩

theorem Binds.mem_bindings (binds : Binds moduleName path name target) :
    (name, target) ∈ (importOf moduleName path).bindings := by
  cases binds with
  | inside level segment =>
    obtain ⟨inner, inHead⟩ := exists_in_head_of_level level name
    rw [importOf_sibling segment inHead]
    exact List.mem_singleton_self _
  | outside away named =>
    rw [importOf_elsewhere away, ← named]
    exact List.mem_singleton_self _

theorem binds_inside {parent last : String} (level : parent = moduleName ∨ parent = Dotted.head moduleName)
    (segment : Dotted.IsSegment last)
    (bound : (name, target) ∈ (importOf moduleName (parent ++ "." ++ last)).bindings) :
    Binds moduleName (parent ++ "." ++ last) name target := by
  obtain ⟨inner, inHead⟩ := exists_in_head_of_level level last
  rw [importOf_sibling segment inHead] at bound
  cases List.mem_singleton.1 bound
  exact .inside level segment

theorem binds_outside (away : ∀ inner, path ≠ Dotted.head moduleName ++ "." ++ inner)
    (bound : (name, target) ∈ (importOf moduleName path).bindings) : Binds moduleName path name target := by
  rw [importOf_elsewhere away] at bound
  cases List.mem_singleton.1 bound
  exact .outside away rfl

end Stub

theorem Viewpoint.Imports.binds {view : Viewpoint} {path reference importPath name target : String}
    (imports : view.Imports path reference importPath)
    (bound : (name, target) ∈ (Stub.importOf view.moduleName importPath).bindings) :
    Stub.Binds view.moduleName importPath name target := by
  cases imports with
  | inner segment => exact Stub.binds_inside (.inl rfl) segment bound
  | sibling outside => exact Stub.binds_inside (.inr rfl) (Dotted.isSegment_head reference) bound
  | @elsewhere _ last segment outside =>
    -- If the import were inside the package, so would be what is imported from it.
    exact Stub.binds_outside (Dotted.ne_dotted_of_outside outside) bound

namespace ModuleOutline

def Requires (outline : ModuleOutline) (path : String) : Prop :=
  (path = "typing" ∨ path ∈ outline.imports) ∧ path ≠ outline.name

/-- The ways in which imports of one stub come to bind a name to different targets. -/
inductive Clash (outline : ModuleOutline) : String → Prop where
  | levels {name : String} (segment : Dotted.IsSegment name) (nested : outline.name ≠ Dotted.head outline.name)
      (submodule : outline.Requires (outline.name ++ "." ++ name))
      (sibling : outline.Requires (Dotted.head outline.name ++ "." ++ name)) : Clash outline name
  | packages {parent name path : String} (level : parent = outline.name ∨ parent = Dotted.head outline.name)
      (segment : Dotted.IsSegment name) (inside : outline.Requires (parent ++ "." ++ name))
      (outside : outline.Requires path) (away : ∀ inner, path ≠ Dotted.head outline.name ++ "." ++ inner)
      (named : Dotted.head path = name) : Clash outline name
  | annotations {path target : String} (required : outline.Requires path)
      (binds : Stub.Binds outline.name path "annotations" target) (different : target ≠ Stub.annotationsPath) :
      Clash outline "annotations"

variable {outline : ModuleOutline} {name path target : String}

theorem Clash.of_binds {other another : String} (required : outline.Requires path)
    (requiredAlso : outline.Requires other) (binds : Stub.Binds outline.name path name target)
    (bindsAlso : Stub.Binds outline.name other name another) (different : target ≠ another) : outline.Clash name := by
  cases binds with
  | inside level segment =>
    cases bindsAlso with
    | inside levelAlso _ =>
      -- Two modules of one last segment are on the two levels.
      rcases level with rfl | rfl <;> rcases levelAlso with rfl | rfl
      · exact absurd rfl different
      · exact .levels segment (fun same => different (by rw [← same])) required requiredAlso
      · exact .levels segment (fun same => different (by rw [← same])) requiredAlso required
      · exact absurd rfl different
    | outside away named => exact .packages level segment required requiredAlso away named
  | outside away named =>
    cases bindsAlso with
    | inside level segment => exact .packages level segment requiredAlso required away named
    | outside _ _ => exact absurd rfl different

/-- If only known paths are required, the names with several targets are those that clash. -/
theorem rebinds_iff_clash
    (bindings : ∀ path name target, outline.Requires path →
      (name, target) ∈ (Stub.importOf outline.name path).bindings → Stub.Binds outline.name path name target) :
    Stub.Rebinds (Stub.ofOutline outline) name ↔ outline.Clash name := by
  have bound : ∀ {path target}, outline.Requires path → Stub.Binds outline.name path name target →
      (name, target) ∈ (Stub.ofOutline outline).flatMap Stub.Statement.bindings := fun required binds =>
    Stub.mem_bindings_ofOutline.2 (.inr ⟨_, required.1, required.2, binds.mem_bindings⟩)
  constructor
  · rintro ⟨⟨_, target⟩, first, ⟨_, another⟩, second, rfl, rfl, different⟩
    -- Each of the two bindings is that of the annotations or that of a required path, which leaves four cases.
    rcases Stub.mem_bindings_ofOutline.1 first with language | ⟨path, kept, notItself, first⟩ <;>
    rcases Stub.mem_bindings_ofOutline.1 second with languageAlso | ⟨other, keptAlso, notItselfAlso, second⟩
    · cases language
      cases languageAlso
      exact absurd rfl different
    · cases language
      have required : outline.Requires other := ⟨keptAlso, notItselfAlso⟩
      exact .annotations required (bindings _ _ _ required second) different.symm
    · cases languageAlso
      have required : outline.Requires path := ⟨kept, notItself⟩
      exact .annotations required (bindings _ _ _ required first) different
    · have required : outline.Requires path := ⟨kept, notItself⟩
      have requiredAlso : outline.Requires other := ⟨keptAlso, notItselfAlso⟩
      exact .of_binds required requiredAlso (bindings _ _ _ required first) (bindings _ _ _ requiredAlso second)
        different
  · intro clash
    cases clash with
    | levels segment nested submodule sibling =>
      refine ⟨_, bound submodule (.inside (.inl rfl) segment), _, bound sibling (.inside (.inr rfl) segment), rfl, rfl, ?_⟩
      intro same
      have parents := (String.append_left_inj name).1 same
      exact nested ((String.append_left_inj ".").1 parents)
    | packages level segment inside outside away named =>
      refine ⟨_, bound inside (.inside level segment), _, bound outside (.outside away named), rfl, rfl, ?_⟩
      intro same
      change _ ++ "." ++ name = name at same
      rw [← same] at segment
      exact Dotted.not_isSegment_dotted _ _ segment
    | annotations required binds different =>
      exact ⟨_, bound required binds, _, Stub.mem_bindings_ofOutline.2 (.inl rfl), rfl, rfl, different⟩

end ModuleOutline

/-- The imports of a stub give a name different meanings exactly if it is the name of a module on two levels of the
package, of a module in the package and a package outside, or of the annotations of the language and something
else. A reference has one meaning unless it begins with such a name. -/
theorem imports_rebind_iff {aliases : Aliases} {names : List String} {mod : Module} {found : Found ModuleOutline}
    (outlined : mod.outline ⟨aliases, mod.name⟩ names = .ok found) :
    (∀ name, Stub.Rebinds (Stub.ofOutline found.value) name ↔ found.value.Clash name) ∧
    ∀ reference, (∃ path other, Stub.Reaches (Stub.ofOutline found.value) reference path ∧
      Stub.Reaches (Stub.ofOutline found.value) reference other ∧ path ≠ other) ↔
      found.value.Clash (Dotted.head reference) := by
  have reads := outline_reads outlined
  obtain ⟨named, imports⟩ := outline_header outlined
  have iff : ∀ name, Stub.Rebinds (Stub.ofOutline found.value) name ↔ found.value.Clash name := by
    intro name
    apply ModuleOutline.rebinds_iff_clash
    rintro path name target ⟨rfl | needed, -⟩ bound
    · -- The module of the typing names is in no package.
      apply Stub.binds_outside _ bound
      intro inner inside
      have segment : Dotted.IsSegment "typing" := by decide
      rw [inside] at segment
      exact Dotted.not_isSegment_dotted _ _ segment
    · -- Any other required path is the import of a written path, so the resolver tells where its name leads.
      rw [imports, reads.mem_imports] at needed
      obtain ⟨text, -, raw, -, inner, -, refers⟩ := needed
      rw [named] at bound ⊢
      cases refer : Viewpoint.refer ⟨aliases, mod.name⟩ inner with
      | own _ | asWritten _ =>
        rw [refer] at refers
        cases refers
      | imported reference importPath =>
        rw [refer] at refers
        cases refers
        exact (Viewpoint.imports_of_referFull refer).binds bound
  refine ⟨iff, ?_⟩
  intro reference
  rw [Stub.exists_reaches_ne_iff, iff]

def clocked : Module where
  name := "anise.astro"
  doc := none
  attributes := ∅
  members := [
    ⟨"now", none, .routine { doc := some ":rtype: anise.time.Epoch", signature := some ⟨[]⟩ }⟩,
    ⟨"clock", none, .routine { doc := some ":rtype: time.struct_time", signature := some ⟨[]⟩ }⟩]

def clockedOutline : ModuleOutline where
  name := "anise.astro"
  functions := [
    ⟨"now", .function, [], some (.name "time.Epoch"), none⟩,
    ⟨"clock", .function, [], some (.name "time.struct_time"), none⟩]
  imports := .ofList ["anise.time", "time"]

theorem outline_clocked : clocked.outline ⟨∅, "anise.astro"⟩ [] =
    .ok { value := clockedOutline, imports := clockedOutline.imports } := by with_unfolding_all rfl

theorem clash_time : clockedOutline.Clash "time" ∧ ¬ clockedOutline.Clash "typing" := by
  have iff := (imports_rebind_iff outline_clocked).1
  exact ⟨(iff "time").1 (by decide), fun clash => absurd ((iff "typing").2 clash) (by decide)⟩

theorem rebinds_time :
    clocked.outline ⟨∅, "anise.astro"⟩ [] = .ok { value := clockedOutline, imports := clockedOutline.imports } ∧
    (Stub.ofOutline clockedOutline).flatMap Stub.Statement.bindings = [("annotations", "__future__.annotations"),
      ("time", "anise.time"), ("time", "time"), ("typing", "typing")] ∧
    Stub.Rebinds (Stub.ofOutline clockedOutline) "time" ∧
    Stub.Reaches (Stub.ofOutline clockedOutline) "time.Epoch" "anise.time.Epoch" ∧
    Stub.Reaches (Stub.ofOutline clockedOutline) "time.Epoch" "time.Epoch" := by
  refine ⟨outline_clocked, ?_⟩
  decide

end TypedStub
